import InlineValues.Grammar.Arrow
import InlineValues.Proofs.Grammar.Steps
import InlineValues.Proofs.Grammar.Name

/-!
# Looking ahead in expressions

Whatever `opensArrow`, `opensAsyncArrow` and `opensTypeArguments` read ahead, the parser comes back
to the same place.
-/

namespace InlineValues
namespace Parser

open ParserState

variable {s : Source} {w : Nat}

/-- Only a closing brace is read together with the text behind it.  Every token but the end is
passed. -/
lemma gives_skipToken (braces : List Bool) {st : ParserState} (hs : st.Sound s w) :
    (skipToken braces).Gives st fun _ st' =>
      st.Reads s w st' [] ∧ (st.kind ≠ .endOfFile → st.here < st'.here) := by
  have hrest (braces : List Bool) (st : ParserState) (hs : st.Sound s w) :
      Gives (do
        advance
        return braces) st fun _ st' => Advances s w st st' :=
    (gives_advance hs).bind fun _ _ h => .pure h
  refine .kind ?_
  split
  case h_1 | h_2 | h_4 => exact .pure_bind ((hrest _ st hs).mono fun _ _ h => ⟨h.toReads, h.lt⟩)
  case h_3 hk =>
    have hclose : st.lexer.token.kind = .closeBrace := hs.current.symm.trans hk
    split
    · refine (gives_rescan hs (hs.lexer.rescanTemplate hclose)
        (hs.lexer.adds_rescanTemplate hclose) (Lexer.fullStart_rescanTemplate _)).bind
        fun piece st₁ h => ?_
      obtain ⟨h₁, hhere, hkind, -⟩ := h
      refine .pure_bind ((hrest _ st₁ h₁.sound).mono fun _ _ h₂ =>
        ⟨h₁.skip h₂.toReads, fun hne => ?_⟩)
      rw [← hhere]
      exact h₂.lt (hs.kind_ne_end h₁.sound hhere hne)
    · exact .pure_bind ((hrest _ st hs).mono fun _ _ h => ⟨h.toReads, h.lt⟩)

instance (braces : List Bool) : (skipToken braces).Frames := by
  refine .bind inferInstance fun k => ?_
  split
  case h_3 => split <;> infer_instance
  all_goals infer_instance

/-- A round that passes one token. -/
lemma gives_skipRound {α : Type} {braces : List Bool} {next : List Bool → α} {st : ParserState}
    (hs : st.Sound s w) (hkind : st.kind ≠ .endOfFile) :
    Gives (do return ForInStep.yield (next (← skipToken braces))) st
      (Round (fun _ st' => st.Reads s w st' []) st) :=
  (gives_skipToken braces hs).bind fun _ _ h => .pure (.yield h.1 (h.2 hkind))

lemma skips_skipBalanced (opening closing : TokenKind) :
    (skipBalanced opening closing).Skips s w := by
  refine Skips.bind (Skips.repeatFrom (fun b st hs => ?_) _) fun _ => skips_pure _
  refine .kind ?_
  split
  · exact .done hs.reads
  case isFalse hkind =>
    have hne : st.kind ≠ .endOfFile := fun heq => hkind (by simp [heq])
    split
    · exact (gives_advance hs).bind fun _ _ h => .done h.toReads
    · exact gives_skipRound hs hne

instance (opening closing : TokenKind) : (skipBalanced opening closing).Frames := by
  unfold skipBalanced
  infer_instance

lemma skips_skipReturnType : skipReturnType.Skips s w := by
  refine Skips.bind (Skips.repeatFrom (fun b st hs => ?_) _) fun _ => skips_pure _
  refine .kind ?_
  split
  · exact .done hs.reads
  case isFalse hkind =>
    have hne : st.kind ≠ .endOfFile := fun heq => hkind (by simp [heq])
    split
    · exact .done hs.reads
    split
    · exact .done hs.reads
    · exact gives_skipRound hs hne

instance : skipReturnType.Frames := by
  refine .bind (.repeatFrom (fun b => .bind inferInstance fun k => ?_) _) inferInstance
  refine .ite inferInstance (.ite inferInstance ?_)
  split <;> infer_instance

lemma skips_reachesArrow (typed : Bool) : (reachesArrow typed).Skips s w := by
  refine (skips_optional _).bind fun isAsync => .ite ?_ ?fromBrackets
  · exact peeks_afterLineBreak.skips.bind fun _ => .ite (skips_pure _) ?fromBrackets
  refine (peeks_at? _).skips.bind fun _ => .ite ?_ ?fromParentheses
  · exact (skips_skipBalanced _ _).bind fun _ => .ite (skips_pure _) ?fromParentheses
  refine (peeks_at? _).skips.bind fun _ => .ite (skips_pure _) ?_
  refine (skips_skipBalanced _ _).bind fun _ => .ite (skips_pure _) ?_
  refine peeks_kind.skips.bind fun k => ?_
  split
  · exact skips_pure _
  · exact .ite (skips_pure _) (skips_advance.bind fun _ => skips_skipReturnType)
  · exact skips_pure _

instance (typed : Bool) : (reachesArrow typed).Frames := by
  refine .bind inferInstance fun isAsync => .ite ?_ ?fromBrackets
  · exact .bind inferInstance fun _ => .ite inferInstance ?fromBrackets
  refine .bind inferInstance fun _ => .ite ?_ ?fromParentheses
  · exact .bind inferInstance fun _ => .ite inferInstance ?fromParentheses
  refine .bind inferInstance fun _ => .ite inferInstance ?_
  refine .bind inferInstance fun _ => .ite inferInstance (.bind inferInstance fun k => ?_)
  split <;> infer_instance

lemma peeks_opensArrow : opensArrow.Peeks s w :=
  fun st hs => .get ((skips_reachesArrow _).lookAhead st hs)

instance : opensArrow.Frames := by
  unfold opensArrow
  infer_instance

/-- Where `async`, a name and an arrow stand, the next token is a word. -/
lemma gives_opensAsyncArrow {st : ParserState} (hs : st.Sound s w) :
    opensAsyncArrow.Gives st fun b st' => st.SamePlace s st' ∧
      (b = true → isWord st'.lexer.scan.token.kind = true) := by
  have hahead : Parser.Gives (do
      advance
      if ← afterLineBreak then return false
      if !(← atIdentifier) then return false
      advance
      at? .equalsGreaterThan) st fun b st' =>
      st.Reads s w st' [] ∧ (b = true → isWord st.lexer.scan.token.kind = true) := by
    refine (gives_advance hs).bind fun _ st₁ h₁ => .afterLineBreak fun _ => ?_
    split
    · exact ⟨h₁.toReads, Bool.noConfusion⟩
    refine .atIdentifier fun b hb => ?_
    rw [ParserState.kind, h₁.sound.current, h₁.token] at hb
    cases b with
    | false => exact ⟨h₁.toReads, Bool.noConfusion⟩
    | true =>
      refine (gives_advance h₁.sound).bind fun _ st₂ h₂ => ?_
      exact ⟨h₁.toReads.skip h₂.toReads, fun _ => hb rfl⟩
  have hplace := gives_lookAhead hs (hahead.mono fun _ _ h => h.1)
  exact ⟨hplace, fun htrue => Lexer.token_scan_eq hplace.cursor ▸ hahead.2 htrue⟩

instance : opensAsyncArrow.Frames := by
  unfold opensAsyncArrow
  infer_instance

lemma turns_typeArgumentStep (b : AngleBalance) : (typeArgumentStep b).Turns s w := by
  intro st hs
  refine .kind ?_
  split
  · refine (gives_advance hs).bind fun _ st₁ h₁ => .kind ?_
    exact .done h₁.toReads
  · dsimp only
    split
    · exact .done hs.reads
    case h_2 hnext =>
      -- No token of a type is the end of the file.
      have hne : st.kind ≠ .endOfFile := fun heq => by
        have hkeyword : TokenKind.endOfFile.isAnyKeyword = false := by decide
        simp [heq, isTypeArgumentToken, hkeyword] at hnext
      exact (gives_advance hs).bind fun _ _ h => .yield h.toReads (h.lt hne)

instance (b : AngleBalance) : (typeArgumentStep b).Frames := by
  refine .bind inferInstance fun k => .ite inferInstance ?_
  dsimp only
  split <;> infer_instance

lemma peeks_opensTypeArguments : opensTypeArguments.Peeks s w := by
  refine Skips.lookAhead ?_
  exact (Skips.repeatFrom turns_typeArgumentStep _).bind fun _ => skips_pure _

instance : opensTypeArguments.Frames := by
  unfold opensTypeArguments
  infer_instance

end Parser
end InlineValues

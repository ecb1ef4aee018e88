import InlineValues.Proofs.Grammar.SourceFile
import InlineValues.Proofs.Printer.OneLine
import InlineValues.Proofs.Printer.Quoted
import InlineValues.Proofs.Token.Literal

/-!
# Literals keep their spelling

The printer passes the trivia in front of a leaf anew, while the range of the leaf comes from the
token that the grammar took, which for a regular expression or a piece of a template was read a
second time.  Both begin at the same character (`Lexer.Sound.skipTrivia_eq`), so that a literal is
printed as the text of that token (`print_literal`).  The layout trims blanks at the end of its
output, which are there only if the literal was cut off (`Lexer.Rereads.getLast?_ne_blank`).
-/

namespace InlineValues

variable {s : Source} {fileName : String} {n : Node} {kind : TokenKind}

/-! ## The token of a leaf -/

/-- A leaf stands on a token that can be read again where the leaf starts. -/
lemma Node.StandsOn.exists_rereads (h : n.StandsOn s kind) :
    ∃ l : Lexer, l.Sound s ∧ (s.lexerAt n.pos).Rereads l ∧ l.token.kind = kind ∧
      n.pos = l.token.fullStart ∧ n.stop = l.stop := by
  obtain ⟨l, hsound, rfl, hpos, hstop⟩ := h
  obtain ⟨l', hrereads, htoken, hcursor⟩ := hsound.origin
  have hsource : l'.source = l.source := by
    rw [hrereads.source, Lexer.source_lexerAt, hsound.source]
  refine ⟨l', hsound.congr hsource htoken.symm hcursor.symm, ?_, ?_, ?_, ?_⟩
  · rwa [hpos]
  · rw [htoken]
  · rw [hpos, htoken]
  · rw [hstop, hcursor]
    rfl

/-! ## Printing a literal -/

/-- The marks of a literal are its spelling. -/
lemma marksOf_literal {c : PrintContext} (hkind : n.kind = .token kind)
    (hliteral : (kind.isLiteral || kind.isTemplatePiece) = true) (hspelling : c.spellingOf n ≠ [])
    (depth : Nat) : marksOf c (depth + 1) n = [.text (c.spellingOf n)] := by
  have hleaf (text : List Char) : printLeaf c n kind text = [.text (c.spellingOf n)] := by
    simp [printLeaf, hliteral, hspelling]
  obtain ⟨origin, stop, form⟩ := n
  rw [Node.kind] at hkind
  change printNode c (marksOf c depth) _ = _
  unfold printNode
  cases form
  case token => cases hkind; exact hleaf []
  case literal => cases hkind; exact hleaf _
  case identifier | privateIdentifier => cases hkind; cases hliteral
  all_goals cases hkind

/-- **Literals keep their spelling.**  At a literal of a parsed text a lexer has read its token, as
it comes or once more in the way that the grammar asked for.  The trivia and the text of this token
make up the range of the literal, and what is printed is the text of the token, short of blanks at
the end if the literal is cut off. -/
theorem print_literal (h : n.Within (parse fileName s).root) (hkind : n.kind = .token kind)
    (hliteral : (kind.isLiteral || kind.isTemplatePiece) = true) (options : PrintOptions) :
    ∃ l : Lexer, (s.lexerAt n.pos).Rereads l ∧ l.token.kind = kind ∧
      l.token.start = skipTrivia s n.pos ∧ l.stop = n.stop ∧
      s.slice n.pos n.stop = s.slice n.pos l.token.start ++ l.text ∧
      (print s options n).truncated = false ∧
      (print s options n).text = l.text.rdropWhile (· == ' ') ∧
      (l.token.unterminated = false → (print s options n).text = l.text) := by
  obtain ⟨hname, hend, hknown, -⟩ := kind.literal_cases hliteral
  have hstands := ((laidOut_root_parse fileName s).1 n h).token kind hkind hname
  obtain ⟨l, hsound, hrereads, rfl, hpos, hstop⟩ := hstands.exists_rereads
  have hspelling : s.slice (n.start s) n.stop = l.text := by
    rw [hsound.text_eq]
    exact hsound.slice_eq hend hknown hpos hstop
  have hmarks : marksOf ⟨s, !options.removeComments⟩ maxPrintDepth n = [.text l.text] := by
    rw [← hspelling]
    exact marksOf_literal (c := ⟨s, !options.removeComments⟩) hkind hliteral
      (hstands.slice hend hknown).1 999
  rw [print, hmarks]
  refine ⟨l, hrereads, rfl, ?_, hstop.symm, ?_, rfl, layOut_text _ _, fun hclosed => ?_⟩
  · rw [hpos, hsound.skipTrivia_eq (hsound.plain hknown)]
  · rw [hpos, hstop]
    exact hsound.slice_fullStart
  · refine layOut_text_of_getLast? ?_ _
    rw [hsound.text_eq]
    exact hrereads.getLast?_ne_blank (hpos ▸ hsound.fullStart) hliteral hclosed

/-- A regular expression behind a comment, with a slash inside. -/
theorem print_regularExpression :
    let s := Source.ofString "/*a*/ /[/]b/g"
    ∃ n : Node, n.Within (parse "a.ts" s).root ∧ n.kind = .token .regularExpressionLiteral ∧
      ∃ l : Lexer, (s.lexerAt n.pos).Rereads l ∧ l.token.kind = .regularExpressionLiteral ∧
        l.token.start = skipTrivia s n.pos ∧ l.stop = n.stop ∧
        s.slice n.pos n.stop = s.slice n.pos l.token.start ++ l.text ∧
        (print s {} n).truncated = false ∧
        (print s {} n).text = l.text.rdropWhile (· == ' ') ∧
        (l.token.unterminated = false → (print s {} n).text = l.text) := by
  intro s
  have hliteral : ∃ n ∈ (parse "a.ts" s).root.children.flatMap Node.children,
      n.kind = .token .regularExpressionLiteral := by
    decide +kernel
  obtain ⟨n, hn, hkind⟩ := hliteral
  obtain ⟨statement, hstatement, hn⟩ := List.mem_flatMap.mp hn
  have hwithin : n.Within (parse "a.ts" s).root := .child hstatement (.child hn .refl)
  exact ⟨n, hwithin, hkind, print_literal hwithin hkind rfl {}⟩

-- The end of a template that is cut off: the blanks behind it belong to the token.
example :
    let s := Source.ofString "`a$\x7bb\x7d c  "
    ((Source.lexerAt s 5).rescanTemplate.text,
      (Source.lexerAt s 5).rescanTemplate.token.unterminated,
      (print s {} (parse "a.ts" s).root).text) =
    ("\x7d c  ".toList, true, "`a$\x7bb\x7d c".toList) := by
  decide +kernel

end InlineValues

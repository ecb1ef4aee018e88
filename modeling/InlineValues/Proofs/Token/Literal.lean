import InlineValues.Proofs.Token.Trivia
import Mathlib.Data.List.Basic

/-!
# How literals end

A number ends with a digit, a letter, a sign or a point, a closed string or template with its quote
or with the brace of a substitution, and a closed regular expression with its slash or its flags.
So no literal ends with a blank, unless it was cut off (`Lexer.Rereads.getLast?_ne_blank`).  This
covers the literals that the grammar has read once more, from a slash or from a closing brace.
-/

namespace InlineValues

/-- Some of the characters in front of `d` stand without a gap. -/
def Cursor.ClosesAt (c d : Cursor) : Prop := ∃ e, c.Before e ∧ e.Avoids isGap d ∧ e.pos < d.pos

lemma Cursor.ClosesAt.of_before {b c d : Cursor} (h : b.Before c) (h' : c.ClosesAt d) :
    b.ClosesAt d := by
  obtain ⟨e, hbefore, hrest⟩ := h'
  exact ⟨e, h.trans hbefore, hrest⟩

/-- What ends without a gap does not end with a blank. -/
theorem Cursor.ClosesAt.getLast?_ne_blank {c d : Cursor} (h : c.ClosesAt d) :
    (c.textTo d).getLast? ≠ some ' ' := by
  obtain ⟨e, hbefore, ⟨hend, hgap⟩, hlt⟩ := h
  have hne : e.textTo d ≠ [] := fun hnil => by
    have hpos := hend.pos_eq
    rw [hnil, byteLength_nil] at hpos
    omega
  rw [textTo_trans hbefore hend, List.getLast?_append_of_ne_nil _ hne]
  intro hlast
  exact absurd (hgap ' ' (List.mem_of_getLast? hlast)) (by decide)

namespace Scanned

/-- Behind a character that closes it, a literal ends without a gap. -/
lemma closesAt_advance {c d : Cursor} {test : Char → Bool} (h : c.Before d)
    (hsees : d.sees test = true) (htest : ∀ a, test a = true → isGap a = false) :
    c.ClosesAt d.advance := by
  refine ⟨d, h, Cursor.avoids_advance_of_sees htest hsees, Cursor.pos_lt_advance fun hnil => ?_⟩
  rw [Cursor.sees, Cursor.peek?, hnil] at hsees
  cases hsees

lemma closesAt_string {quote : Char} (hquote : isGap quote = false) {start : Cursor}
    (hclosed : (string quote start).unterminated = false) :
    start.ClosesAt (string quote start).stop := by
  have hstop := start.before_advance.trans
    (before_stringStop quote start.advance.rest start.advance.pos)
  simp only [string] at hclosed ⊢
  split at hclosed
  case isTrue hsees =>
    rw [if_pos hsees]
    exact closesAt_advance hstop hsees fun a ha => eq_of_beq ha ▸ hquote
  case isFalse => cases hclosed

/-- A piece of a template ends in front of a quote or of a substitution, or at the end of the
text. -/
lemma templateStop_front (rest : List Char) (pos : Nat) :
    (templateStop rest pos).rest = [] ∨ ∃ behind, (templateStop rest pos).rest = '\x60' :: behind ∨
      (templateStop rest pos).rest = '$' :: '\x7b' :: behind := by
  fun_induction templateStop rest pos with
  | case1 => exact .inl rfl
  | case2 rest pos => exact .inr ⟨rest, .inr rfl⟩
  | case3 pos c rest ih => exact ih
  | case4 c rest pos _ _ hquote => exact .inr ⟨rest, .inl (congrArg (· :: rest) (eq_of_beq hquote))⟩
  | case5 c rest pos _ _ _ ih => exact ih

lemma closesAt_template {head : Bool} {body : Cursor}
    (hclosed : (template head body).unterminated = false) :
    body.ClosesAt (template head body).stop := by
  have hstop := before_templateStop body.rest body.pos
  have hfront := templateStop_front body.rest body.pos
  revert hstop hfront hclosed
  simp only [template]
  generalize templateStop body.rest body.pos = stop
  intro hclosed hstop hfront
  obtain ⟨rest, pos⟩ := stop
  rcases hfront with rfl | ⟨behind, rfl | rfl⟩
  · cases hclosed
  · have hquote : Cursor.sees ⟨'\x60' :: behind, pos⟩ (· == '\x60') = true := rfl
    exact closesAt_advance hstop hquote (isGap_of_test (by decide) (by decide) (by decide))
  · exact ⟨⟨'$' :: '\x7b' :: behind, pos⟩, hstop,
      (Cursor.avoids_cons (by decide)).trans (Cursor.avoids_cons (by decide)),
      Nat.lt_add_of_pos_right (Nat.zero_lt_two)⟩

lemma closesAt_regularExpression {start : Cursor}
    (hclosed : (regularExpression start).unterminated = false) :
    start.ClosesAt (regularExpression start).stop := by
  have hstop := start.before_advance.trans
    (onLineTo_regularExpressionStop false start.advance.rest start.advance.pos).1
  simp only [regularExpression] at hclosed ⊢
  split at hclosed
  case isTrue hslash =>
    rw [if_pos hslash]
    have hpart : ∀ a, isIdentifierPart a = true → isGap a = false :=
      isGap_of_test (by decide) (by decide) (by decide)
    have hflags := Cursor.avoids_skipWhile hpart
    obtain ⟨e, hbefore, hend, hlt⟩ := closesAt_advance hstop hslash
      (isGap_of_test (by decide) (by decide) (by decide))
    exact ⟨e, hbefore, hend.trans (hflags _), Nat.lt_of_lt_of_le hlt (hflags _).1.pos_le⟩
  case isFalse => cases hclosed

lemma closesAt_number {start : Cursor}
    (h : start.sees (fun a => isDecimalDigit a || a == '.') = true) :
    start.ClosesAt (number start).stop :=
  ⟨start, .refl start, (closesNumber_number start).avoids, (closesNumber_number start).moves h⟩

/-- A literal that is not cut off ends without a gap. -/
lemma closesAt_token {start : Cursor}
    (hkind : ((token start).kind.isLiteral || (token start).kind.isTemplatePiece) = true)
    (hclosed : (token start).unterminated = false) : start.ClosesAt (token start).stop := by
  have hsigns : ∀ k ∈ TokenKind.operators, (k.isLiteral || k.isTemplatePiece) = false := by
    decide
  have hwords : ∀ k ∈ TokenKind.keywords, (k.isLiteral || k.isTemplatePiece) = false := by
    decide
  revert hkind hclosed
  rw [token]
  split
  case h_1 => exact (absurd · Bool.false_ne_true)
  case h_2 c rest hrest =>
  split
  case isTrue hquote =>
    refine fun _ hclosed => closesAt_string ?_ hclosed
    rcases Bool.or_eq_true _ _ ▸ hquote with hdouble | hsingle
    · exact eq_of_beq hdouble ▸ by decide
    · exact eq_of_beq hsingle ▸ by decide
  split
  case isTrue => exact fun _ hclosed => (closesAt_template hclosed).of_before start.before_advance
  split
  case isTrue hnumber =>
    refine fun _ _ => closesAt_number ?_
    simp only [Cursor.sees, Cursor.peek?, hrest, List.head?_cons, Option.any_some]
    simp only [Bool.or_eq_true, Bool.and_eq_true] at hnumber ⊢
    exact hnumber.imp_right And.left
  -- Whatever else a token starts with, it is no literal.
  split
  case isTrue => exact (absurd · Bool.false_ne_true)
  split
  case isTrue =>
    intro hkind
    simp only [word] at hkind
    cases hword : TokenKind.ofWord? (start.textTo (start.advance.skipWhile isIdentifierPart)) with
    | none => rw [hword] at hkind; exact absurd hkind (by decide)
    | some k =>
      rw [hword, Option.getD_some,
        hwords k (TokenKind.mem_keywords_of_ofWord? hword)] at hkind
      cases hkind
  split
  case h_1 k length hoperator =>
    intro hkind
    rw [hsigns k (TokenKind.stands_of_operator? hoperator).1] at hkind
    cases hkind
  case h_2 => exact (absurd · Bool.false_ne_true)

end Scanned

namespace Lexer

variable {s : Source} {p : Nat} {l : Lexer}

lemma sound_lexerAt (hp : s.IsCut p) : (s.lexerAt p).Sound s :=
  sound_scan rfl (cursor_setPosition hp ▸ Cursor.on_cursor hp)

/-- A literal that was read as it stands ends without a gap, if it is not cut off. -/
lemma closesAt_lexerAt (hp : s.IsCut p)
    (hkind : ((s.lexerAt p).token.kind.isLiteral || (s.lexerAt p).token.kind.isTemplatePiece) =
      true) (hclosed : (s.lexerAt p).token.unterminated = false) :
    (s.cursor (s.lexerAt p).token.start).ClosesAt (s.lexerAt p).cursor := by
  have hstop := (Cursor.on_cursor hp).of_before (Trivia.before_stop (s.cursor p))
  rw [Source.lexerAt, token_scan, cursor_setPosition hp] at hkind hclosed
  rw [Source.lexerAt, token_scan, cursor_scan, cursor_setPosition hp, hstop.eq_cursor]
  exact Scanned.closesAt_token hkind hclosed

/-- A literal that is not cut off does not end with a blank. -/
theorem Rereads.getLast?_ne_blank (hp : s.IsCut p) (h : (s.lexerAt p).Rereads l)
    (hkind : (l.token.kind.isLiteral || l.token.kind.isTemplatePiece) = true)
    (hclosed : l.token.unterminated = false) :
    ((s.cursor l.token.start).textTo l.cursor).getLast? ≠ some ' ' := by
  have hnone : ∀ k ∈ TokenKind.greaterKinds, (k.isLiteral || k.isTemplatePiece) = false := by
    decide
  refine Cursor.ClosesAt.getLast?_ne_blank ?_
  cases h with
  | same => exact closesAt_lexerAt hp hkind hclosed
  | greater =>
    have hself := eq_of_rescanGreater fun hgreater => by
      rw [hnone _ hgreater] at hkind
      cases hkind
    rw [hself] at hkind hclosed ⊢
    exact closesAt_lexerAt hp hkind hclosed
  | slash hslash =>
    rw [Lexer.rescanSlash, if_pos (by simpa using hslash), source_lexerAt] at hclosed ⊢
    simp only [replaceToken, token_report, cursor_report, Bool.or_eq_false_iff] at hclosed ⊢
    exact Scanned.closesAt_regularExpression hclosed.2
  | template hbrace =>
    rw [Lexer.rescanTemplate, source_lexerAt] at hclosed ⊢
    simp only [replaceToken, token_report, cursor_report, Bool.or_eq_false_iff] at hclosed ⊢
    exact (Scanned.closesAt_template hclosed.2).of_before ((sound_lexerAt hp).before_brace hbrace)

end Lexer

end InlineValues

import InlineValues.Proofs.Token.Scan
import InlineValues.Token.Lexer

/-!
# Tokens that are read once more

A lexer reads its next token from its cursor alone (`Lexer.token_scan`).  The grammar may then ask
for another way to read the token: a `>` is extended, a slash opens a regular expression, and a
closing brace goes on with a template.  `Lexer.Rereads` lists these ways, of which at most one
changes anything: what was read once more is neither a slash nor a brace
(`Lexer.Rereads.eq_of_kind`), and a `>` cannot be extended twice (`Lexer.rescanGreater_idem`).

None of this depends on what was reported before, so that lexers are compared by their tokens and
cursors only (`Lexer.Agrees`).
-/

namespace InlineValues

namespace Lexer

/-! ## Reports change nothing but the diagnostics -/

@[simp] lemma source_report (l : Lexer) (d : Option Diagnostic) :
    (l.report d).source = l.source := by
  cases d <;> rfl

@[simp] lemma token_report (l : Lexer) (d : Option Diagnostic) :
    (l.report d).token = l.token := by
  cases d <;> rfl

@[simp] lemma cursor_report (l : Lexer) (d : Option Diagnostic) :
    (l.report d).cursor = l.cursor := by
  cases d <;> rfl

/-! ## Reading on -/

@[simp] lemma source_scan (l : Lexer) : l.scan.source = l.source := by
  simp only [scan, source_report]
  split <;> simp

@[simp] lemma cursor_scan (l : Lexer) :
    l.scan.cursor = (Scanned.token (Trivia.before l.cursor).stop).stop := by
  simp only [scan, cursor_report]

theorem token_scan (l : Lexer) :
    l.scan.token =
      { kind := (Scanned.token (Trivia.before l.cursor).stop).kind
        fullStart := l.cursor.pos
        start := (Trivia.before l.cursor).stop.pos
        value := (Scanned.token (Trivia.before l.cursor).stop).value
        afterLineBreak := (Trivia.before l.cursor).lineBreak
        unterminated := (Scanned.token (Trivia.before l.cursor).stop).unterminated } := by
  simp only [scan, token_report]
  split <;> simp

/-- What the next token is depends on the cursor only. -/
lemma token_scan_eq {l l' : Lexer} (h : l.cursor = l'.cursor) : l.scan.token = l'.scan.token := by
  rw [token_scan, token_scan, h]

/-- The trivia of the next token starts where the current one ends. -/
@[simp] lemma fullStart_scan (l : Lexer) : l.scan.token.fullStart = l.cursor.pos := by
  rw [token_scan]

/-! ## Reading the current token in another way -/

@[simp] lemma source_replaceToken (l : Lexer) (t : Scanned) :
    (l.replaceToken t).source = l.source := by
  simp [replaceToken]

@[simp] lemma fullStart_replaceToken (l : Lexer) (t : Scanned) :
    (l.replaceToken t).token.fullStart = l.token.fullStart := by
  simp [replaceToken]

@[simp] lemma kind_replaceToken (l : Lexer) (t : Scanned) :
    (l.replaceToken t).token.kind = t.kind := by
  simp [replaceToken]

@[simp] lemma source_rescanGreater (l : Lexer) : l.rescanGreater.source = l.source := by
  rw [rescanGreater]
  split <;> rfl

@[simp] lemma fullStart_rescanGreater (l : Lexer) :
    l.rescanGreater.token.fullStart = l.token.fullStart := by
  rw [rescanGreater]
  split <;> rfl

@[simp] lemma diagnostics_rescanGreater (l : Lexer) :
    l.rescanGreater.diagnostics = l.diagnostics := by
  rw [rescanGreater]
  split <;> rfl

@[simp] lemma source_rescanSlash (l : Lexer) : l.rescanSlash.source = l.source := by
  rw [rescanSlash]
  split
  · exact source_replaceToken l _
  · rfl

@[simp] lemma fullStart_rescanSlash (l : Lexer) :
    l.rescanSlash.token.fullStart = l.token.fullStart := by
  rw [rescanSlash]
  split
  · exact fullStart_replaceToken l _
  · rfl

/-- A slash is read as a regular expression. -/
lemma kind_rescanSlash_of_slash {l : Lexer}
    (h : l.token.kind = .slash ∨ l.token.kind = .slashEquals) :
    l.rescanSlash.token.kind = .regularExpressionLiteral := by
  rw [rescanSlash, if_pos (by simpa using h), kind_replaceToken, Scanned.kind_regularExpression]

lemma kind_rescanSlash {l : Lexer} (hkind : l.token.kind ≠ .endOfFile) :
    l.rescanSlash.token.kind ≠ .endOfFile := by
  rw [Lexer.rescanSlash]
  split
  · rw [kind_replaceToken, Scanned.kind_regularExpression]
    simp
  · exact hkind

/-- What a slash is read as is no name. -/
lemma isName_rescanSlash {l : Lexer} (hname : l.token.kind.isName = false) :
    l.rescanSlash.token.kind.isName = false := by
  rw [Lexer.rescanSlash]
  split
  · rw [kind_replaceToken, Scanned.kind_regularExpression]
    rfl
  · exact hname

@[simp] lemma fullStart_rescanTemplate (l : Lexer) :
    l.rescanTemplate.token.fullStart = l.token.fullStart := fullStart_replaceToken l _

/-- A closing brace is read as a piece of a template. -/
lemma kind_rescanTemplate (l : Lexer) :
    l.rescanTemplate.token.kind.isTemplatePiece = true := by
  rw [rescanTemplate, kind_replaceToken]
  exact Scanned.kind_template _ _

/-! ## Lexers at the same token -/

/-- Two lexers have read the same token and stand behind it at the same place. -/
structure Agrees (l l' : Lexer) : Prop where
  token : l.token = l'.token
  cursor : l.cursor = l'.cursor

namespace Agrees

variable {l l' l'' : Lexer}

lemma refl (l : Lexer) : l.Agrees l := ⟨rfl, rfl⟩

lemma symm (h : l.Agrees l') : l'.Agrees l := ⟨h.token.symm, h.cursor.symm⟩

lemma trans (h : l.Agrees l') (h' : l'.Agrees l'') : l.Agrees l'' :=
  ⟨h.token.trans h'.token, h.cursor.trans h'.cursor⟩

lemma scan (h : l.cursor = l'.cursor) : l.scan.Agrees l'.scan :=
  ⟨token_scan_eq h, by rw [cursor_scan, cursor_scan, h]⟩

lemma rescanGreater (h : l.Agrees l') : l.rescanGreater.Agrees l'.rescanGreater := by
  obtain ⟨htoken, hcursor⟩ := h
  rw [Lexer.rescanGreater, Lexer.rescanGreater, htoken, hcursor]
  split
  · exact ⟨rfl, rfl⟩
  · exact ⟨htoken, hcursor⟩

lemma replaceToken (h : l.Agrees l') (t : Scanned) :
    (l.replaceToken t).Agrees (l'.replaceToken t) := by
  constructor
  · simp only [Lexer.replaceToken, token_report, h.token]
  · simp only [Lexer.replaceToken, cursor_report]

lemma rescanSlash (h : l.Agrees l') (hsource : l.source = l'.source) :
    l.rescanSlash.Agrees l'.rescanSlash := by
  rw [Lexer.rescanSlash, Lexer.rescanSlash, h.token, hsource]
  split
  · exact h.replaceToken _
  · exact h

lemma rescanTemplate (h : l.Agrees l') (hsource : l.source = l'.source) :
    l.rescanTemplate.Agrees l'.rescanTemplate := by
  rw [Lexer.rescanTemplate, Lexer.rescanTemplate, h.token, hsource]
  exact h.replaceToken _

end Agrees

/-! ## Extending a `>` -/

lemma rescanGreater_eq_self {l : Lexer} (h : l.token.kind ≠ .greaterThan) :
    l.rescanGreater = l := by
  rw [rescanGreater, if_neg (by simpa using h)]

lemma kind_rescanGreater {l : Lexer} (h : l.token.kind = .greaterThan) :
    l.rescanGreater.token.kind ∈ TokenKind.greaterKinds := by
  rw [rescanGreater, if_pos (by simp [h])]
  exact TokenKind.greaterOperator_mem _

/-- Only a `>` is read in another way. -/
lemma eq_of_rescanGreater {l : Lexer}
    (h : l.rescanGreater.token.kind ∉ TokenKind.greaterKinds) : l.rescanGreater = l :=
  rescanGreater_eq_self fun hkind => h (kind_rescanGreater hkind)

theorem rescanGreater_idem (l : Lexer) : l.rescanGreater.rescanGreater.Agrees l.rescanGreater := by
  by_cases hkind : l.rescanGreater.token.kind = .greaterThan
  · by_cases hraw : l.token.kind = .greaterThan
    · have hoperator : (greaterOperator l.cursor.rest).1 = .greaterThan := by
        rw [rescanGreater, if_pos (by simp [hraw])] at hkind
        exact hkind
      have hlength : (greaterOperator l.cursor.rest).2 = 0 := by
        obtain ⟨tail, -, hspelling, hlength⟩ := TokenKind.greaterOperator_extends l.cursor.rest
        rw [hoperator] at hspelling
        cases hspelling
        exact hlength
      have hself : l.rescanGreater.Agrees l := by
        rw [rescanGreater, if_pos (by simp [hraw])]
        dsimp only
        rw [hoperator, hlength]
        refine ⟨?_, rfl⟩
        rw [← hraw]
      exact hself.rescanGreater
    · rw [rescanGreater_eq_self hraw]
      exact (Agrees.refl l).rescanGreater.trans (by rw [rescanGreater_eq_self hraw]; exact .refl l)
  · rw [rescanGreater_eq_self hkind]
    exact .refl _

/-! ## The ways to read a token -/

/-- What the grammar makes of a lexer that has read a token: it takes it as it is, or it asks for
another way to read it. -/
inductive Rereads (l : Lexer) : Lexer → Prop
  | same : Rereads l l
  | greater : Rereads l l.rescanGreater
  | slash (h : l.token.kind = .slash ∨ l.token.kind = .slashEquals) : Rereads l l.rescanSlash
  | template (h : l.token.kind = .closeBrace) : Rereads l l.rescanTemplate

namespace Rereads

variable {l l' l'' : Lexer} (h : l.Rereads l')
include h

lemma source : l'.source = l.source := by
  cases h with
  | same => rfl
  | greater => exact source_rescanGreater l
  | slash => exact source_rescanSlash l
  | template => exact source_replaceToken l _

/-- What neither begins with `>` nor is one of the literals that are read once more was taken as it
is. -/
theorem eq_of_kind (hgreater : l'.token.kind ∉ TokenKind.greaterKinds)
    (hslash : l'.token.kind ≠ .regularExpressionLiteral)
    (htemplate : l'.token.kind.isTemplatePiece = false) : l' = l := by
  cases h with
  | same => rfl
  | greater => exact eq_of_rescanGreater hgreater
  | slash h => exact absurd (kind_rescanSlash_of_slash h) hslash
  | template =>
    rw [kind_rescanTemplate] at htemplate
    cases htemplate

/-! ### Once more is enough -/

lemma rescanGreater (hl : l''.Agrees l') :
    ∃ m, l.Rereads m ∧ l''.rescanGreater.Agrees m := by
  by_cases hkind : l''.token.kind = .greaterThan
  · refine ⟨l.rescanGreater, .greater, ?_⟩
    have hagain := hl.rescanGreater
    rw [hl.token] at hkind
    cases h with
    | same => exact hagain
    | greater => exact hagain.trans (rescanGreater_idem l)
    | slash hslash =>
      rw [kind_rescanSlash_of_slash hslash] at hkind
      cases hkind
    | template =>
      have hpiece := kind_rescanTemplate l
      rw [hkind] at hpiece
      cases hpiece
  · rw [rescanGreater_eq_self hkind]
    exact ⟨l', h, hl⟩

lemma rescanSlash (hl : l''.Agrees l') (hsource : l''.source = l.source)
    (hkind : l''.token.kind = .slash ∨ l''.token.kind = .slashEquals) :
    ∃ m, l.Rereads m ∧ l''.rescanSlash.Agrees m := by
  have hsame : l' = l := by
    apply h.eq_of_kind
    all_goals
      rw [← hl.token]
      rcases hkind with hkind | hkind <;> (rw [hkind]; decide)
  subst hsame
  exact ⟨_, .slash (hl.token ▸ hkind), hl.rescanSlash hsource⟩

lemma rescanTemplate (hl : l''.Agrees l') (hsource : l''.source = l.source)
    (hkind : l''.token.kind = .closeBrace) :
    ∃ m, l.Rereads m ∧ l''.rescanTemplate.Agrees m := by
  have hsame : l' = l := by
    apply h.eq_of_kind
    all_goals
      rw [← hl.token, hkind]
      decide
  subst hsame
  exact ⟨_, .template (hl.token ▸ hkind), hl.rescanTemplate hsource⟩

end Rereads

end Lexer
end InlineValues

import InlineValues.Proofs.Token.Literal
import InlineValues.Proofs.Token.Operand
import InlineValues.Proofs.Token.Tiling

/-!
# Kinds and spellings

The printer writes punctuation and keywords from their kinds alone, so that a kind must not drift
away from the characters it was read from.  `TokenKind.Spells` is what keeps them together: a kind
that has a spelling has this one, and a text with the shape of a word is a keyword exactly if it is
spelled like it, and otherwise an identifier with the text for its value.

A token is spelled in this way when it is read (`Scanned.spells_token`), and still is when it is
read once more in another way (`Lexer.Rereads.spells`).  What else can be asked of a lexer brings it
to a token that was read in one of these ways, or to a place where nothing was read yet, so that
`Lexer.Steady` is all that is needed (`Lexer.Steady.spells`).
-/

namespace InlineValues

/-- A text with the shape of a name. -/
def isWord : List Char → Bool
  | [] => false
  | c :: cs => isIdentifierStart c && cs.all isIdentifierPart

/-- What starts with another character is no word, as far as it is taken. -/
lemma isWord_textTo {c : Cursor} (h : ∀ a ∈ c.rest.head?, isIdentifierStart a = false)
    (d : Cursor) : isWord (c.textTo d) = false := by
  obtain ⟨rest, pos⟩ := c
  rw [Cursor.textTo]
  cases rest with
  | nil => simp [isWord]
  | cons a rest =>
    by_cases hempty : d.pos - pos = 0
    · rw [hempty, takeBytes_zero]
      rfl
    · rw [takeBytes_cons a rest hempty, isWord, h a rfl, Bool.false_and]

namespace TokenKind

/-- The kind and the value of a token go with its characters. -/
structure Spells (kind : TokenKind) (value text : List Char) : Prop where
  /-- The kinds without a spelling of their own have the empty one. -/
  spelling : kind.spelling ≠ [] → text = kind.spelling
  isWord_iff : isWord text = true ↔ kind = .identifier ∨ kind ∈ keywords
  keyword : isWord text = true → ∀ k ∈ keywords, kind = k ↔ text = k.spelling
  value_eq : isWord text = true → value = text

/-- The kinds whose characters are chosen by the text, apart from identifiers. -/
def freeKinds : List TokenKind :=
  [unknown, endOfFile, privateIdentifier, numericLiteral, bigIntLiteral, stringLiteral,
    regularExpressionLiteral, noSubstitutionTemplateLiteral, templateHead, templateMiddle,
    templateTail]

lemma mem_freeKinds_of_isTemplatePiece {k : TokenKind} (h : k.isTemplatePiece = true) :
    k ∈ freeKinds := by
  revert h
  cases k <;> decide

lemma freeKinds_apart :
    ∀ k ∈ freeKinds, k.spelling = [] ∧ k ≠ .identifier ∧ k ∉ keywords := by
  decide

lemma signs_apart : ∀ k ∈ operators ++ greaterKinds,
    isWord k.spelling = false ∧ k ≠ .identifier ∧ k ∉ keywords := by
  decide +kernel

variable {k : TokenKind} {value text : List Char}

lemma spells_of_not_isWord (hword : isWord text = false) (hkind : k ≠ .identifier ∧ k ∉ keywords)
    (hspelling : k.spelling ≠ [] → text = k.spelling) : k.Spells value text where
  spelling := hspelling
  isWord_iff := by
    rw [hword]
    exact iff_of_false Bool.false_ne_true (not_or.mpr hkind)
  keyword := by rw [hword]; nofun
  value_eq := by rw [hword]; nofun

lemma spells_of_free (hk : k ∈ freeKinds) (hword : isWord text = false) :
    k.Spells value text := by
  obtain ⟨hspelling, hkind⟩ := freeKinds_apart k hk
  exact spells_of_not_isWord hword hkind fun hne => absurd hspelling hne

/-- Punctuation is no word. -/
lemma spells_sign (hk : k ∈ operators ++ greaterKinds) : k.Spells value k.spelling := by
  obtain ⟨hword, hkind⟩ := signs_apart k hk
  exact spells_of_not_isWord hword hkind fun _ => rfl

/-- A word is looked up among the keywords. -/
lemma spells_word (hword : isWord text = true) :
    ((ofWord? text).getD .identifier).Spells text text := by
  have hidentifier : identifier ∉ keywords := by decide
  cases hfound : ofWord? text with
  | none =>
    have hnone : ∀ k ∈ keywords, text ≠ k.spelling := fun k hk htext => by
      rw [htext, ofWord?_spelling k hk] at hfound
      cases hfound
    constructor
    case spelling => exact fun hne => absurd rfl hne
    case isWord_iff => exact iff_of_true hword (.inl rfl)
    case keyword =>
      exact fun _ k hk => iff_of_false (fun heq => hidentifier (by rwa [← heq] at hk)) (hnone k hk)
    case value_eq => exact fun _ => rfl
  | some k =>
    have hspelling := spelling_of_ofWord? hfound
    constructor
    case spelling => exact fun _ => hspelling.symm
    case isWord_iff => exact iff_of_true hword (.inr (mem_keywords_of_ofWord? hfound))
    case keyword =>
      intro _ k' hk'
      constructor
      · rintro rfl
        exact hspelling.symm
      · intro htext
        rw [htext, ofWord?_spelling k' hk'] at hfound
        exact (Option.some.inj hfound).symm
    case value_eq => exact fun _ => rfl

end TokenKind

/-! ## A token that is read -/

namespace Scanned

open TokenKind

/-- A character that starts a word starts nothing else. -/
lemma spells_token_of_word {c : Char} (hc : isIdentifierStart c = true) (cs : List Char)
    (pos : Nat) :
    (token ⟨c :: cs, pos⟩).kind.Spells (token ⟨c :: cs, pos⟩).value
      (Cursor.textTo ⟨c :: cs, pos⟩ (token ⟨c :: cs, pos⟩).stop) := by
  obtain ⟨as, rest, rfl, has, hrest, -⟩ := Cursor.exists_runFrom isIdentifierPart cs pos
  have hword : isWord (c :: as) = true := by rw [isWord, hc, has, Bool.and_self]
  rw [token_eq_word hc, ← List.cons_append, word_append has hrest, Cursor.textTo_append]
  exact spells_word hword

/-- Every token goes with its characters when it is read. -/
theorem spells_token (start : Cursor) :
    (token start).kind.Spells (token start).value (start.textTo (token start).stop) := by
  by_cases hword : ∃ c ∈ start.rest.head?, isIdentifierStart c = true
  · obtain ⟨c, hc, hstart⟩ := hword
    obtain ⟨rest, pos⟩ := start
    obtain ⟨cs, rfl⟩ := List.head?_eq_some_iff.mp hc
    exact spells_token_of_word hstart cs pos
  have hother : ∀ c ∈ start.rest.head?, isIdentifierStart c = false := fun c hc =>
    Bool.eq_false_iff.mpr fun hstart => hword ⟨c, hc, hstart⟩
  have hfree {t : Scanned} (hkind : t.kind ∈ freeKinds) :
      t.kind.Spells t.value (start.textTo t.stop) := spells_of_free hkind (isWord_textTo hother _)
  unfold token
  split
  · exact hfree (by simp [freeKinds])
  rename_i c rest hcons
  split
  · apply hfree
    rw [string]
    split <;> simp [freeKinds]
  split
  · exact hfree (mem_freeKinds_of_isTemplatePiece (kind_template _ _))
  split
  · have hnumbers : ∀ k ∈ [numericLiteral, bigIntLiteral], k ∈ freeKinds := by decide
    exact hfree (hnumbers _ (closesNumber_number start).kind)
  split
  · exact hfree (by simp [privateName, freeKinds])
  split
  case isTrue hstart => rw [hother c (by rw [hcons]; rfl)] at hstart; cases hstart
  split
  case h_1 k length hk =>
    obtain ⟨hmem, hfront, rfl⟩ := stands_of_operator? hk
    dsimp only
    rw [Cursor.textTo_skip hfront]
    exact spells_sign (List.mem_append_left _ hmem)
  case h_2 => exact hfree (by simp [invalid, freeKinds])

end Scanned

/-! ## A token that is read once more -/

namespace Lexer

open TokenKind

variable {s : Source} {l : Lexer} {p : Nat}

lemma spells_lexerAt (hp : s.IsCut p) :
    (s.lexerAt p).token.kind.Spells (s.lexerAt p).token.value
      ((s.cursor (s.lexerAt p).token.start).textTo (s.lexerAt p).cursor) := by
  have hstop := (Cursor.on_cursor hp).of_before (Trivia.before_stop (s.cursor p))
  rw [Source.lexerAt, token_scan, cursor_scan, cursor_setPosition hp, hstop.eq_cursor]
  exact Scanned.spells_token _

/-- An extended `>` is spelled by what it is extended to. -/
lemma spells_rescanGreater (h : l.Sound s)
    (hspells : l.token.kind.Spells l.token.value ((s.cursor l.token.start).textTo l.cursor)) :
    l.rescanGreater.token.kind.Spells l.rescanGreater.token.value
      ((s.cursor l.rescanGreater.token.start).textTo l.rescanGreater.cursor) := by
  by_cases hkind : l.token.kind = .greaterThan
  · obtain ⟨tail, hfront, hspelling, hlength⟩ := greaterOperator_extends l.cursor.rest
    have htext : (s.cursor l.token.start).textTo l.cursor = ['>'] := by
      rw [hkind] at hspells
      exact hspells.spelling (List.cons_ne_nil _ _)
    rw [rescanGreater, if_pos (by simp [hkind])]
    dsimp only
    rw [hlength, Cursor.textTo_trans h.before (Cursor.before_skip _ _), htext,
      Cursor.textTo_skip hfront, List.singleton_append, ← hspelling]
    exact spells_sign (List.mem_append_right _ (greaterOperator_mem _))
  · rwa [rescanGreater_eq_self hkind]

/-- What is read again as a literal starts like no word. -/
lemma not_isIdentifierStart_of_spells (h : l.Sound s)
    (hspells : l.token.kind.Spells l.token.value ((s.cursor l.token.start).textTo l.cursor))
    (hkind : l.token.kind ∈ [slash, slashEquals, closeBrace]) :
    ∀ a ∈ (s.cursor l.token.start).rest.head?, isIdentifierStart a = false := by
  have hmarks : ∀ k ∈ [slash, slashEquals, closeBrace],
      k.spelling ≠ [] ∧ k.spelling.head?.any isIdentifierStart = false := by
    decide
  obtain ⟨hne, hhead⟩ := hmarks _ hkind
  intro a ha
  rw [h.before.rest_eq, hspells.spelling hne, List.head?_append_of_ne_nil _ hne] at ha
  rw [Option.mem_def.mp ha] at hhead
  exact hhead

/-- A token that was read once more goes with its characters, too. -/
theorem Rereads.spells (hp : s.IsCut p) (h : (s.lexerAt p).Rereads l) :
    l.token.kind.Spells l.token.value ((s.cursor l.token.start).textTo l.cursor) := by
  have hspells := spells_lexerAt hp
  have hsound := sound_lexerAt hp
  cases h with
  | same => exact hspells
  | greater => exact spells_rescanGreater hsound hspells
  | slash hslash =>
    have hstart := not_isIdentifierStart_of_spells hsound hspells
      (by rcases hslash with hslash | hslash <;> (rw [hslash]; decide))
    rw [Lexer.rescanSlash, if_pos (by simpa using hslash)]
    simp only [replaceToken, token_report, cursor_report]
    exact spells_of_free (by rw [Scanned.kind_regularExpression]; decide) (isWord_textTo hstart _)
  | template hbrace =>
    have hstart := not_isIdentifierStart_of_spells hsound hspells (by rw [hbrace]; decide)
    rw [Lexer.rescanTemplate]
    simp only [replaceToken, token_report, cursor_report]
    exact spells_of_free (mem_freeKinds_of_isTemplatePiece (Scanned.kind_template _ _))
      (isWord_textTo hstart _)

/-! ## Whatever is asked of a lexer -/

theorem Sound.spells (h : l.Sound s) : l.token.kind.Spells l.token.value l.text := by
  obtain ⟨l', hrereads, htoken, hcursor⟩ := h.origin
  rw [h.text_eq, htoken, hcursor]
  exact hrereads.spells h.fullStart

/-- Where nothing was read yet, at most a first line that begins with `#!` was passed. -/
theorem Idle.spells (h : l.Idle s) : l.token.kind.Spells l.token.value l.text := by
  have htext : l.text = (s.cursor l.token.start).textTo l.cursor := by
    rw [text, h.source]
    exact (Cursor.on_cursor h.start).slice_eq h.cursor h.before.pos_le
  have hword : isWord l.text = false := by
    rw [htext]
    have hfront := h.front
    cases hpassed : (s.cursor l.token.start).textTo l.cursor with
    | nil => rfl
    | cons a as =>
      rw [hpassed] at hfront
      rw [isWord, hfront a rfl]
      rfl
  have hkind : l.token.kind ∈ freeKinds := by
    rw [Steady.kind_of_idle h]
    decide
  exact spells_of_free hkind hword

theorem Steady.spells (h : l.Steady s) : l.token.kind.Spells l.token.value l.text :=
  h.elim Sound.spells Idle.spells

/-- **Kinds and spellings agree.**  Whatever is asked of a lexer from the start of any text on, in
any order, the kind and the value of its token go with the characters that the token stands on.  A
kind that has a spelling stands on this spelling and on nothing more.  A text with the shape of a
word has the kind of a keyword just if it is the spelling of that keyword, and otherwise it is an
identifier with the text for its value.

The printer needs the first half, since it writes keywords and punctuation from their kinds alone,
and the grammar the second.  Coming back to a snapshot is among the operations, and so is reading a
token once more in another way, as long as `History.run?` allows it for the token at hand. -/
theorem spells_run (s : Source) (operations : List Operation) (h : History)
    (hrun : (History.start s).run? operations = some h) :
    h.lexer.token.kind.Spells h.lexer.token.value h.lexer.text :=
  ((History.steady_start s).run hrun).lexer.spells

/-- Back to an extended operator from within the word in front of it. -/
theorem spells_run_greaterThanGreaterThanEquals :
    ∃ h, (History.start (.ofString "#!\nof>>=/b/")).run?
        [.skipShebang, .scan, .scan, .rescanGreater, .save, .scan, .rescanSlash, .setPosition 4,
          .scan, .restore 0] = some h ∧
      h.lexer.token.kind = .greaterThanGreaterThanEquals ∧
      h.lexer.token.kind.Spells h.lexer.token.value h.lexer.text := by
  have hkind : ((History.start (.ofString "#!\nof>>=/b/")).run?
      [.skipShebang, .scan, .scan, .rescanGreater, .save, .scan, .rescanSlash, .setPosition 4,
        .scan, .restore 0]).map (·.lexer.token.kind) = some .greaterThanGreaterThanEquals := by
    decide +kernel
  obtain ⟨h, hrun, hkind⟩ := Option.map_eq_some_iff.mp hkind
  exact ⟨h, hrun, hkind, spells_run _ _ h hrun⟩

end Lexer
end InlineValues

import InlineValues.Proofs.Token.Reread

/-!
# The lexer stays on its text

`Lexer.Sound` is what holds of a lexer that has read a token: the trivia, the token and the cursor
follow each other at cuts of the text, and only the end of the file is empty.  Reading on keeps it
(`Lexer.sound_scan`), and so do the three ways to read the current token again, none of which
moves its start.  Reading on also joins the tokens: the trivia of the next one starts where the
last one ended.

What was read depends on the place only: the token is the one that a lexer reads which is put where
the trivia starts, as it comes or read once more in another way (`Lexer.Rereads`).
-/

namespace InlineValues

/-- Where a token starts whose trivia starts at an offset. -/
def Source.tokenStart (s : Source) (p : Nat) : Nat := (Trivia.before (s.cursor p)).stop.pos

lemma Cursor.On.tokenStart_eq {s : Source} {c : Cursor} (h : c.On s) :
    s.tokenStart c.pos = (Trivia.before c).stop.pos := by
  rw [Source.tokenStart, h.eq_cursor]

lemma Source.tokenStart_le_size {s : Source} {p : Nat} (h : s.IsCut p) :
    s.tokenStart p ≤ s.size :=
  ((Cursor.on_cursor h).of_before (Trivia.before_stop _)).isCut.le_size

/-- The lexer that has read the token from an offset on. -/
def Source.lexerAt (s : Source) (p : Nat) : Lexer := ((Lexer.start s).setPosition p).scan

namespace Lexer

/-- A lexer that has read a token of the text `s`. -/
structure Sound (s : Source) (l : Lexer) : Prop where
  source : l.source = s
  cursor : l.cursor.On s
  fullStart : s.IsCut l.token.fullStart
  start : s.IsCut l.token.start
  fullStart_le : l.token.fullStart ≤ l.token.start
  before : (s.cursor l.token.start).Before l.cursor
  moves : l.token.kind ≠ .endOfFile → l.token.start < l.cursor.pos
  endOfFile : l.token.kind = .endOfFile → l.token.value = [] ∧ l.token.start = s.size
  brace : l.token.kind = .closeBrace → (s.cursor l.token.start).rest.head? = some '\x7d'
  trivia : s.tokenStart l.token.fullStart = l.token.start
  value : l.token.value <:+: (s.cursor l.token.start).textTo l.cursor
  spelled : l.token.kind.isName = true →
    l.token.value = (s.cursor l.token.start).textTo l.cursor
  line : l.token.kind.staysOnLine = true → OneLine ((s.cursor l.token.start).textTo l.cursor)
  plain : l.token.kind ≠ .unknown → ¬ ['#', '!'] <+: (s.cursor l.token.start).rest
  origin : ∃ l', (s.lexerAt l.token.fullStart).Rereads l' ∧ l.Agrees l'

/-- A lexer that has read the same token of the same text is as sound. -/
lemma Sound.congr {s : Source} {l l' : Lexer} (h : l.Sound s) (hsource : l'.source = l.source)
    (htoken : l'.token = l.token) (hcursor : l'.cursor = l.cursor) : l'.Sound s := by
  have horigin : ∃ m, (s.lexerAt l'.token.fullStart).Rereads m ∧ l'.Agrees m := by
    obtain ⟨m, hm, hagrees⟩ := h.origin
    exact ⟨m, htoken ▸ hm, Agrees.trans ⟨htoken, hcursor⟩ hagrees⟩
  obtain ⟨source, token, cursor, diagnostics⟩ := l
  obtain ⟨source', token', cursor', diagnostics'⟩ := l'
  obtain rfl : source' = source := hsource
  obtain rfl : token' = token := htoken
  obtain rfl : cursor' = cursor := hcursor
  obtain ⟨⟩ := h
  constructor
  case origin => exact horigin
  all_goals assumption

lemma Sound.start_le {s : Source} {l : Lexer} (h : l.Sound s) : l.token.start ≤ l.cursor.pos :=
  h.before.pos_le

/-- A token that is not the end of the file ends behind the start of its trivia. -/
lemma Sound.fullStart_lt {s : Source} {l : Lexer} (h : l.Sound s)
    (hkind : l.token.kind ≠ .endOfFile) : l.token.fullStart < l.cursor.pos :=
  Nat.lt_of_le_of_lt h.fullStart_le (h.moves hkind)

/-- The end of the file ends there. -/
lemma Sound.stop_of_endOfFile {s : Source} {l : Lexer} (h : l.Sound s)
    (hkind : l.token.kind = .endOfFile) : l.cursor.pos = s.size := by
  have hsize := (h.endOfFile hkind).2
  have hle := h.start_le
  have hstop := h.cursor.isCut.le_size
  omega

/-- The text of a token is what a lexer has read behind its trivia. -/
lemma Sound.text_eq {s : Source} {l : Lexer} (h : l.Sound s) :
    l.text = (s.cursor l.token.start).textTo l.cursor := by
  rw [text, h.source]
  exact (Cursor.on_cursor h.start).slice_eq h.cursor h.start_le

/-- What a lexer has read is the trivia and the token. -/
lemma Sound.slice_fullStart {s : Source} {l : Lexer} (h : l.Sound s) :
    s.slice l.token.fullStart l.stop = s.slice l.token.fullStart l.token.start ++ l.text := by
  have htext : l.text = s.slice l.token.start l.stop := by rw [text, h.source]
  rw [htext]
  exact h.fullStart.slice_append h.start h.cursor.isCut h.fullStart_le h.start_le

/-- Whether the text has ended depends on nothing but where the trivia of the token starts. -/
lemma Sound.endOfFile_of_fullStart {s : Source} {l l' : Lexer} (h : l.Sound s) (h' : l'.Sound s)
    (hfull : l'.token.fullStart = l.token.fullStart) (hkind : l.token.kind = .endOfFile) :
    l'.token.kind = .endOfFile := by
  have hstart : l'.token.start = l.token.start := by rw [← h.trivia, ← h'.trivia, hfull]
  have hsize := (h.endOfFile hkind).2
  have hle := h'.cursor.isCut.le_size
  refine Decidable.byContradiction fun hne => ?_
  have := h'.moves hne
  omega

/-! ## Reading on -/

@[simp] lemma source_lexerAt (s : Source) (p : Nat) : (s.lexerAt p).source = s :=
  source_scan _

lemma cursor_setPosition {s : Source} {p : Nat} (hp : s.IsCut p) :
    ((Lexer.start s).setPosition p).cursor = s.cursor p := by
  change s.cursor (min p s.size) = _
  rw [Nat.min_eq_left hp.le_size]

/-- What is read next does not depend on what was read before. -/
lemma agrees_lexerAt {s : Source} {l : Lexer} (hcursor : l.cursor.On s) :
    l.scan.Agrees (s.lexerAt l.cursor.pos) := by
  refine Agrees.scan ?_
  change _ = s.cursor (min l.cursor.pos s.size)
  rw [Nat.min_eq_left hcursor.isCut.le_size, hcursor.eq_cursor]

theorem sound_scan {s : Source} {l : Lexer} (hsource : l.source = s) (hcursor : l.cursor.On s) :
    l.scan.Sound s := by
  have htrivia := Trivia.before_stop l.cursor
  have hstop := hcursor.of_before htrivia
  have hself := hstop.eq_cursor
  have horigin : ∃ l', (s.lexerAt l.scan.token.fullStart).Rereads l' ∧ l.scan.Agrees l' := by
    rw [fullStart_scan]
    exact ⟨_, .same, agrees_lexerAt hcursor⟩
  by_cases hrest : (Trivia.before l.cursor).stop.rest = []
  · have htoken := Scanned.token_of_nil hrest
    constructor
    case source => rw [source_scan, hsource]
    case origin => exact horigin
    case cursor => rwa [cursor_scan, htoken]
    case brace => rw [token_scan, htoken]; simp
    case before => rw [cursor_scan, token_scan, htoken, hself]; exact .refl _
    case moves => rw [token_scan, htoken]; exact fun h => absurd rfl h
    case endOfFile => rw [token_scan, htoken]; exact fun _ => ⟨rfl, hstop.pos_eq_size hrest⟩
    case value => rw [token_scan, htoken]; exact List.nil_infix
    case spelled => rw [token_scan, htoken]; nofun
    case line => rw [token_scan, htoken]; nofun
    case plain => rw [token_scan, hself, hrest]; simp
    all_goals rw [token_scan]
    · exact hcursor.isCut
    · exact hstop.isCut
    · exact htrivia.pos_le
    · exact hcursor.tokenStart_eq
  · have hread := Scanned.token_readFrom hrest
    constructor
    case source => rw [source_scan, hsource]
    case origin => exact horigin
    case cursor => rw [cursor_scan]; exact hstop.of_before hread.before
    case brace => rw [token_scan, hself]; exact hread.brace
    case before => rw [cursor_scan, token_scan, hself]; exact hread.before
    case moves => rw [cursor_scan, token_scan]; exact fun _ => hread.moves
    case endOfFile => rw [token_scan]; exact fun h => absurd h hread.kind_ne
    case value => rw [cursor_scan, token_scan, hself]; exact hread.value
    case spelled => rw [cursor_scan, token_scan, hself]; exact hread.spelled
    case line => rw [cursor_scan, token_scan, hself]; exact hread.line
    case plain => rw [token_scan, hself]; exact hread.plain
    all_goals rw [token_scan]
    · exact hcursor.isCut
    · exact hstop.isCut
    · exact htrivia.pos_le
    · exact hcursor.tokenStart_eq

/-! ## Reading the current token in another way -/

/-- A token that was read forward from the start of the current one may take its place. -/
lemma Sound.replaceToken {s : Source} {l : Lexer} {t : Scanned} (h : l.Sound s)
    (hread : t.ReadFrom (s.cursor l.token.start))
    (horigin : ∃ l', (s.lexerAt l.token.fullStart).Rereads l' ∧ (l.replaceToken t).Agrees l') :
    (l.replaceToken t).Sound s := by
  rw [← fullStart_replaceToken l t] at horigin
  have hstart := Cursor.on_cursor h.start
  constructor
  case origin => exact horigin
  all_goals simp only [Lexer.replaceToken, source_report, token_report, cursor_report]
  case source => exact h.source
  case cursor => exact hstart.of_before hread.before
  case fullStart => exact h.fullStart
  case start => exact h.start
  case fullStart_le => exact h.fullStart_le
  case before => exact hread.before
  case moves => exact fun _ => hread.moves
  case endOfFile => exact fun hkind => absurd hkind hread.kind_ne
  case brace => exact hread.brace
  case trivia => exact h.trivia
  case value => exact hread.value
  case spelled => exact hread.spelled
  case line => exact hread.line
  case plain => exact hread.plain

/-- What a `>` is extended to begins with it. -/
lemma greaterKinds_ne : ∀ k ∈ TokenKind.greaterKinds,
    k ≠ .endOfFile ∧ k ≠ .closeBrace ∧ k.isName = false ∧ k.staysOnLine = false := by
  decide

lemma Sound.rescanGreater {s : Source} {l : Lexer} (h : l.Sound s) :
    l.rescanGreater.Sound s := by
  have horigin : ∃ l', (s.lexerAt l.rescanGreater.token.fullStart).Rereads l' ∧
      l.rescanGreater.Agrees l' := by
    obtain ⟨l', hl', hagrees⟩ := h.origin
    rw [fullStart_rescanGreater]
    exact hl'.rescanGreater hagrees
  rw [Lexer.rescanGreater] at horigin ⊢
  split at horigin
  case isTrue hkind =>
    have hgreater : l.token.kind = .greaterThan := eq_of_beq hkind
    have hmoves : l.token.start < l.cursor.pos := h.moves (by simp [hgreater])
    have hskip := l.cursor.before_skip (greaterOperator l.cursor.rest).2
    obtain ⟨hend, hbrace, hname, hline⟩ :=
      greaterKinds_ne _ (TokenKind.greaterOperator_mem l.cursor.rest)
    rw [if_pos hkind]
    constructor
    case origin => exact horigin
    all_goals dsimp only
    case source => exact h.source
    case cursor => exact h.cursor.of_before hskip
    case fullStart => exact h.fullStart
    case start => exact h.start
    case fullStart_le => exact h.fullStart_le
    case before => exact h.before.trans hskip
    case moves => exact fun _ => Nat.lt_of_lt_of_le hmoves hskip.pos_le
    case endOfFile => exact fun hk => absurd hk hend
    case brace => exact fun hk => absurd hk hbrace
    case trivia => exact h.trivia
    case value =>
      rw [Cursor.textTo_trans h.before hskip]
      exact h.value.trans (List.prefix_append _ _).isInfix
    case spelled => exact fun hk => absurd hk (by simp [hname])
    case line => exact fun hk => absurd hk (by simp [hline])
    case plain => exact fun _ => h.plain (by simp [hgreater])
  case isFalse hkind => rwa [if_neg hkind]

/-- Where a token starts, no line ends. -/
lemma Sound.onLineTo_advance {s : Source} {l : Lexer} (h : l.Sound s) :
    (s.cursor l.token.start).OnLineTo (s.cursor l.token.start).advance := by
  have hstop := (Cursor.on_cursor h.fullStart).of_before (Trivia.before_stop _)
  have hself : s.cursor (s.tokenStart l.token.fullStart) = _ := hstop.eq_cursor
  rw [h.trivia] at hself
  rw [hself]
  refine Cursor.avoids_advance fun a ha => ?_
  obtain ⟨rest, hrest⟩ := List.head?_eq_some_iff.mp ha
  exact endsLine_of_isLineBreak (by simp [(Trivia.front_stop hrest).1])

/-- Where a token starts that is not the end of the file, there is something left to read. -/
lemma Sound.rest_ne_nil {s : Source} {l : Lexer} (h : l.Sound s)
    (hkind : l.token.kind ≠ .endOfFile) : (s.cursor l.token.start).rest ≠ [] := by
  intro hnil
  have hsize := (Cursor.on_cursor h.start).pos_eq_size hnil
  have hle := h.cursor.isCut.le_size
  have hmoves := h.moves hkind
  change l.token.start = s.size at hsize
  omega

lemma Sound.rescanSlash {s : Source} {l : Lexer} (h : l.Sound s) : l.rescanSlash.Sound s := by
  rw [Lexer.rescanSlash]
  split
  case isTrue hkind =>
    have hne : l.token.kind ≠ .endOfFile ∧ l.token.kind ≠ .unknown := by
      constructor <;> (intro heq; rw [heq] at hkind; exact absurd hkind (by decide))
    obtain ⟨l', hl', hagrees⟩ := h.origin
    have horigin := hl'.rescanSlash hagrees (h.source.trans (source_lexerAt s _).symm)
      (by simpa using hkind)
    rw [Lexer.rescanSlash, if_pos hkind, h.source] at horigin
    rw [h.source]
    refine h.replaceToken (Scanned.readFrom_regularExpression (h.rest_ne_nil hne.1) (h.plain hne.2)
      h.onLineTo_advance) horigin
  case isFalse => exact h

/-- Behind the brace that starts the current token the text goes on. -/
lemma Sound.before_brace {s : Source} {l : Lexer} (h : l.Sound s)
    (hkind : l.token.kind = .closeBrace) :
    (s.cursor l.token.start).Before (s.cursor (l.token.start + 1)) := by
  have hstart := Cursor.on_cursor h.start
  obtain ⟨rest, hrest⟩ : ∃ rest, (s.cursor l.token.start).rest = '\x7d' :: rest :=
    List.head?_eq_some_iff.mp (h.brace hkind)
  have hstep : (s.cursor l.token.start).Before ⟨rest, l.token.start + 1⟩ :=
    ⟨['\x7d'], hrest, rfl⟩
  have hself := (hstart.of_before hstep).eq_cursor
  simp only at hself
  rwa [hself]

lemma Sound.rescanTemplate {s : Source} {l : Lexer} (h : l.Sound s)
    (hkind : l.token.kind = .closeBrace) : l.rescanTemplate.Sound s := by
  obtain ⟨l', hl', hagrees⟩ := h.origin
  have horigin := hl'.rescanTemplate hagrees (h.source.trans (source_lexerAt s _).symm) hkind
  rw [Lexer.rescanTemplate, h.source] at horigin ⊢
  refine h.replaceToken (Scanned.readFrom_template (h.before_brace hkind)
    (Nat.lt_succ_self l.token.start) (h.plain (by simp [hkind])) false) horigin

end Lexer
end InlineValues

import InlineValues.Proofs.Token.Fault
import InlineValues.Proofs.Token.Lexeme

/-!
# Reading lexemes

`Lexer.Path` says which lexemes a lexer reads from one place to another one, each `>` extended to
the longest operator.  `Spells` says the same of a text: it is made of the lexemes, perhaps with
blanks in front of them and a semicolon behind the last one.  A lexer on such a text reads the
lexemes in turn (`Lexer.Spelled`).

To look ahead the grammar reads tokens as they are scanned, with every `>` by itself
(`Lexer.Scans`).  What it sees then are the parts of the lexemes (`TokenKind.parts`).
-/

namespace InlineValues

namespace Lexer

/-! ## Paths -/

/-- The lexemes `ts` are read from `l` to `l'`. -/
def Path (l : Lexer) (ts : List Lexeme) (l' : Lexer) : Prop :=
  match ts with
  | [] => l.rescanGreater.Agrees l'.rescanGreater
  | t :: ts => l.rescanGreater.token.kind = t.kind ∧ l.rescanGreater.scan.Path ts l'

namespace Path

variable {l l' l'' : Lexer} {t : Lexeme} {ts us : List Lexeme}

lemma refl (l : Lexer) : l.Path [] l := Agrees.refl _

lemma of_agrees (h : l.rescanGreater.Agrees l'.rescanGreater) (h' : l'.Path ts l'') :
    l.Path ts l'' := by
  induction ts generalizing l l' with
  | nil => exact h.trans h'
  | cons t ts ih =>
    obtain ⟨hkind, hrest⟩ := h'
    exact ⟨by rw [h.token, hkind], ih (Agrees.scan h.cursor).rescanGreater hrest⟩

lemma trans (h : l.Path ts l') (h' : l'.Path us l'') : l.Path (ts ++ us) l'' := by
  induction ts generalizing l with
  | nil => exact h'.of_agrees h
  | cons t ts ih => exact ⟨h.1, ih h.2⟩

end Path

/-! ## What a lexer stands at -/

variable {s : Source} {l : Lexer}

/-- A token that neither begins with `>` nor is one of the literals that are read once more is that
at the start of its trivia. -/
lemma Sound.agrees_lexerAt (h : l.Sound s) (hgreater : l.token.kind ∉ TokenKind.greaterKinds)
    (hslash : l.token.kind ≠ .regularExpressionLiteral)
    (htemplate : l.token.kind.isTemplatePiece = false) :
    l.Agrees (s.lexerAt l.token.fullStart) := by
  obtain ⟨l', hrereads, hagrees⟩ := h.origin
  rw [hagrees.token] at hgreater hslash htemplate
  exact hrereads.eq_of_kind hgreater hslash htemplate ▸ hagrees

/-- The operand or name at which a lexer stands. -/
lemma Sound.exists_isAtom (h : l.Sound s) (hnoted : l.Noted s)
    (hkind : l.token.kind.isAtom = true) (hclean : l.diagnostics = #[]) :
    ∃ t : Lexeme, t.IsAtom ∧ t.kind = l.token.kind ∧ t.value = l.token.value ∧
      t.text = (s.cursor l.token.start).textTo l.cursor := by
  have hscanned : ∀ k : TokenKind, k.isAtom = true →
      k ≠ .regularExpressionLiteral ∧ k.isTemplatePiece = false := by
    intro k
    cases k
    all_goals decide
  obtain ⟨hslash, htemplate⟩ := hscanned _ hkind
  have hagrees :=
    h.agrees_lexerAt (TokenKind.notMem_greaterKinds_of_isAtom hkind) hslash htemplate
  have hstop := (Cursor.on_cursor h.fullStart).of_before (Trivia.before_stop _)
  have hstart : s.cursor l.token.start = (Trivia.before (s.cursor l.token.fullStart)).stop := by
    rw [← h.trivia]
    exact hstop.eq_cursor
  rw [hstart]
  rw [hagrees.token, Source.lexerAt, token_scan, cursor_setPosition h.fullStart] at hkind ⊢
  rw [hagrees.cursor, Source.lexerAt, cursor_scan, cursor_setPosition h.fullStart]
  exact Lexeme.exists_isAtom hkind (hnoted hclean)

/-- A keyword is one by its value. -/
lemma Sound.ofWord?_value (h : l.Sound s) (hkind : l.token.kind.isAnyKeyword = true) :
    TokenKind.ofWord? l.token.value = some l.token.kind := by
  have hscanned : ∀ k : TokenKind, k.isAnyKeyword = true →
      k ∉ TokenKind.greaterKinds ∧ k ≠ .regularExpressionLiteral ∧ k.isTemplatePiece = false := by
    intro k
    cases k
    all_goals decide
  obtain ⟨hgreater, hslash, htemplate⟩ := hscanned _ hkind
  have hagrees := h.agrees_lexerAt hgreater hslash htemplate
  rw [hagrees.token, Source.lexerAt, token_scan] at hkind ⊢
  exact (Scanned.raw_token _).keyword hkind

end Lexer

/-! ## Tokens as they are scanned -/

/-- From a cursor, tokens of these kinds are scanned in turn. -/
def Cursor.Scans (c : Cursor) : List TokenKind → Prop
  | [] => True
  | k :: ks => (Scanned.token (Trivia.before c).stop).kind = k ∧
      Scans (Scanned.token (Trivia.before c).stop).stop ks

/-- From the current token on, tokens of these kinds are scanned in turn. -/
def Lexer.Scans (l : Lexer) : List TokenKind → Prop
  | [] => True
  | k :: ks => l.token.kind = k ∧ l.cursor.Scans ks

lemma Lexer.scans_scan {l : Lexer} {ks : List TokenKind} (h : l.cursor.Scans ks) :
    l.scan.Scans ks := by
  cases ks with
  | nil => trivial
  | cons k ks =>
    refine ⟨?_, ?_⟩
    · rw [token_scan]
      exact h.1
    · rw [cursor_scan]
      exact h.2

lemma Lexer.Agrees.scans {l l' : Lexer} {ks : List TokenKind} (h : l.Agrees l')
    (h' : l'.Scans ks) : l.Scans ks := by
  cases ks with
  | nil => trivial
  | cons k ks => exact ⟨h.token ▸ h'.1, h.cursor ▸ h'.2⟩

/-- What an operator that begins with `>` is scanned as. -/
def TokenKind.parts : TokenKind → List TokenKind
  | greaterThanEquals => [greaterThan, equals]
  | greaterThanGreaterThan => [greaterThan, greaterThan]
  | greaterThanGreaterThanEquals => [greaterThan, greaterThan, equals]
  | greaterThanGreaterThanGreaterThan => [greaterThan, greaterThan, greaterThan]
  | greaterThanGreaterThanGreaterThanEquals => [greaterThan, greaterThan, greaterThan, equals]
  | k => [k]

lemma TokenKind.parts_eq_singleton {k : TokenKind} (h : k ∉ greaterKinds) : k.parts = [k] := by
  cases k
  all_goals first | rfl | exact absurd (by decide) h

/-- The tokens that lexemes are scanned as. -/
def rawKinds (ts : List Lexeme) : List TokenKind := ts.flatMap fun t => t.kind.parts

@[simp] lemma rawKinds_nil : rawKinds [] = [] := rfl

@[simp] lemma rawKinds_cons (t : Lexeme) (ts : List Lexeme) :
    rawKinds (t :: ts) = t.kind.parts ++ rawKinds ts := List.flatMap_cons

/-! ## Texts that are made of lexemes -/

/-- What may stand behind the lexemes of an expression: nothing, or a semicolon. -/
def IsClosing (cs : List Char) : Prop := cs = [] ∨ cs = [';']

/-- What closes a text, as it is scanned. -/
def closings : List (List TokenKind) := [[.endOfFile], [.semicolon, .endOfFile]]

/-- What closes a text, perhaps behind parentheses that close around all of it. -/
def IsEnding (ks : List TokenKind) : Prop :=
  ∃ parens, ∃ tail ∈ closings, ks = List.replicate parens .closeParen ++ tail

/-- The text is made of the lexemes, perhaps with blanks in front of them, and closes behind them.
An operator that begins with `>` stands in front of a blank. -/
inductive Spells : List Char → List Lexeme → Prop
  | nil {cs : List Char} (h : IsClosing cs) : Spells cs []
  | blank {cs : List Char} {ts : List Lexeme} (h : Spells cs ts) : Spells (' ' :: cs) ts
  | cons {cs : List Char} {t : Lexeme} {ts : List Lexeme} (stands : t.StandsAt cs)
      (greater : t.kind ∈ TokenKind.greaterKinds →
        t.text = t.kind.spelling ∧ cs.head? = some ' ')
      (h : Spells cs ts) : Spells (t.text ++ cs) (t :: ts)

lemma Trivia.before_blank (cs : List Char) (pos : Nat) :
    before ⟨' ' :: cs, pos⟩ = before ⟨cs, pos + 1⟩ := rfl

/-- What closes a text is a semicolon or the end of the file. -/
lemma IsClosing.token {cs : List Char} (h : IsClosing cs) (pos : Nat) :
    Trivia.before ⟨cs, pos⟩ = ⟨⟨cs, pos⟩, false, false⟩ ∧
      ∃ k, (k = .endOfFile ∨ k = .semicolon) ∧ ∃ pos', Scanned.token ⟨cs, pos⟩ =
        { kind := k, value := [], stop := ⟨[], pos'⟩ } := by
  rcases h with rfl | rfl
  · exact ⟨rfl, .endOfFile, .inl rfl, pos, rfl⟩
  · exact ⟨rfl, .semicolon, .inr rfl, pos + 1, rfl⟩

namespace Spells

variable {cs : List Char} {t : Lexeme} {ts : List Lexeme}

/-- Behind its blanks, the text starts with the first lexeme. -/
lemma before_cons (h : Spells cs (t :: ts)) (pos : Nat) :
    ∃ cs' pos', Trivia.before ⟨cs, pos⟩ = ⟨⟨t.text ++ cs', pos'⟩, false, false⟩ ∧
      t.StandsAt cs' ∧ Spells cs' ts := by
  generalize hts : t :: ts = us at h
  induction h generalizing pos with
  | nil => cases hts
  | blank _ ih =>
    obtain ⟨cs', pos', hbefore, hrest⟩ := ih (pos + 1) hts
    exact ⟨cs', pos', by rw [Trivia.before_blank, hbefore], hrest⟩
  | cons stands _ h =>
    cases hts
    exact ⟨_, pos, stands.trivia pos, stands, h⟩

/-- Behind its blanks, a text without lexemes closes. -/
lemma before_nil (h : Spells cs []) (pos : Nat) :
    ∃ cs' pos', Trivia.before ⟨cs, pos⟩ = ⟨⟨cs', pos'⟩, false, false⟩ ∧ IsClosing cs' := by
  generalize hts : ([] : List Lexeme) = us at h
  induction h generalizing pos with
  | nil h => exact ⟨_, pos, (h.token pos).1, h⟩
  | blank _ ih =>
    obtain ⟨cs', pos', hbefore, hrest⟩ := ih (pos + 1) hts
    exact ⟨cs', pos', by rw [Trivia.before_blank, hbefore], hrest⟩
  | cons => cases hts

/-- Every lexeme takes a byte. -/
lemma length_le (h : Spells cs ts) : ts.length ≤ byteLength cs := by
  induction h with
  | nil => exact Nat.zero_le _
  | blank _ ih =>
    rw [byteLength_cons]
    omega
  | cons stands _ _ ih =>
    rename_i t _ _ _
    have hne : byteLength t.text ≠ 0 := fun hzero => stands.ne_nil (byteLength_eq_zero.mp hzero)
    rw [byteLength_append, List.length_cons]
    omega

end Spells

/-! ## Scanning a text that is made of lexemes -/

namespace Cursor

variable {cs : List Char} {pos : Nat} {ks : List TokenKind}

lemma scans_blank : Scans ⟨' ' :: cs, pos⟩ ks ↔ Scans ⟨cs, pos + 1⟩ ks := by
  cases ks with
  | nil => rfl
  | cons k ks => rw [Scans, Scans, Trivia.before_blank]

/-- A `>` is scanned by itself. -/
lemma scans_greaterThan :
    Scans ⟨'>' :: cs, pos⟩ (.greaterThan :: ks) ↔ Scans ⟨cs, pos + 1⟩ ks := by
  rw [Scans, Trivia.before_front rfl rfl (fun h => absurd h (by decide)),
    Lexeme.token_greaterThan]
  exact ⟨fun h => h.2, fun h => ⟨rfl, h⟩⟩

lemma scans_equals (h : cs.head? = some ' ') :
    Scans ⟨'=' :: cs, pos⟩ (.equals :: ks) ↔ Scans ⟨cs, pos + 1⟩ ks := by
  have hcs : ∀ c ∈ cs.head?, c ∉ TokenKind.equals.extensions := by
    rw [h]
    rintro c ⟨⟩
    decide
  have htrivia := Trivia.before_sign (k := .equals) (by decide) hcs pos
  have htoken := Scanned.token_sign (k := .equals) (by decide) hcs pos
  rw [show TokenKind.equals.spelling = ['='] from rfl, List.singleton_append] at htrivia htoken
  rw [Scans, htrivia, htoken]
  exact ⟨fun h => h.2, fun h => ⟨rfl, h⟩⟩

/-- In front of a blank, an operator that begins with `>` is scanned as its parts. -/
lemma scans_greater {k : TokenKind} (hk : k ∈ TokenKind.greaterKinds) (h : cs.head? = some ' ')
    (hcs : ∀ pos, Scans ⟨cs, pos⟩ ks) : Scans ⟨k.spelling ++ cs, pos⟩ (k.parts ++ ks) := by
  have hequals (pos : Nat) : Scans ⟨'=' :: cs, pos⟩ (.equals :: ks) := (scans_equals h).mpr (hcs _)
  simp only [TokenKind.greaterKinds, List.mem_cons, List.not_mem_nil, or_false] at hk
  rcases hk with rfl | rfl | rfl | rfl | rfl | rfl
  · exact scans_greaterThan.mpr (hcs _)
  · exact scans_greaterThan.mpr (hequals _)
  · exact scans_greaterThan.mpr (scans_greaterThan.mpr (hcs _))
  · exact scans_greaterThan.mpr (scans_greaterThan.mpr (hequals _))
  · exact scans_greaterThan.mpr (scans_greaterThan.mpr (scans_greaterThan.mpr (hcs _)))
  · exact scans_greaterThan.mpr (scans_greaterThan.mpr (scans_greaterThan.mpr (hequals _)))

end Cursor

/-- The characters of a lexeme that does not begin with `>` are scanned as it. -/
lemma Lexeme.StandsAt.token_eq {t : Lexeme} {cs : List Char} (h : t.StandsAt cs)
    (hkind : t.kind ∉ TokenKind.greaterKinds) (pos : Nat) :
    Scanned.token ⟨t.text ++ cs, pos⟩ =
      { kind := t.kind, value := t.value, stop := ⟨cs, pos + byteLength t.text⟩ } := by
  have htoken := h.token pos
  rwa [Scanned.joined_eq_self] at htoken
  intro hgreater
  rw [Scanned.joined, if_pos (by simp [hgreater])] at htoken
  have hlonger :
      (Lexer.greaterOperator (Scanned.token ⟨t.text ++ cs, pos⟩).stop.rest).1 = t.kind :=
    congrArg Scanned.kind htoken
  exact hkind (hlonger ▸ TokenKind.greaterOperator_mem _)

/-- A text that is made of lexemes is scanned as their parts, and then closes. -/
lemma Spells.scans {cs : List Char} {ts : List Lexeme} (h : Spells cs ts) :
    ∃ tail ∈ closings, ∀ pos, Cursor.Scans ⟨cs, pos⟩ (rawKinds ts ++ tail) := by
  induction h with
  | nil h =>
    rcases h with rfl | rfl
    · exact ⟨[.endOfFile], by simp [closings], fun pos => ⟨rfl, trivial⟩⟩
    · exact ⟨[.semicolon, .endOfFile], by simp [closings], fun pos => ⟨rfl, rfl, trivial⟩⟩
  | blank _ ih =>
    obtain ⟨tail, htail, hscans⟩ := ih
    exact ⟨tail, htail, fun pos => Cursor.scans_blank.mpr (hscans _)⟩
  | @cons cs t ts stands greater _ ih =>
    obtain ⟨tail, htail, hscans⟩ := ih
    refine ⟨tail, htail, fun pos => ?_⟩
    rw [rawKinds_cons, List.append_assoc]
    by_cases hkind : t.kind ∈ TokenKind.greaterKinds
    · obtain ⟨htext, hblank⟩ := greater hkind
      rw [htext]
      exact Cursor.scans_greater hkind hblank hscans
    · rw [TokenKind.parts_eq_singleton hkind, List.singleton_append, Cursor.Scans,
        stands.trivia pos, stands.token_eq hkind]
      exact ⟨rfl, hscans _⟩

/-! ## Lexers on a text that is made of lexemes -/

namespace Lexer

/-- What a `>` is extended to is read off the text behind it. -/
lemma rescanGreater_scan (l : Lexer) :
    let t := (Scanned.token (Trivia.before l.cursor).stop).joined
    l.scan.rescanGreater.token.kind = t.kind ∧ l.scan.rescanGreater.token.value = t.value ∧
      l.scan.rescanGreater.cursor = t.stop ∧
      l.scan.rescanGreater.token.afterLineBreak = (Trivia.before l.cursor).lineBreak := by
  rw [rescanGreater, Scanned.joined]
  simp only [token_scan, cursor_scan]
  split <;> simp [token_scan]

/-- Where nothing is wrong with the next token, nothing is reported. -/
lemma diagnostics_scan_eq {l : Lexer} (hunclosed : (Trivia.before l.cursor).unclosed = false)
    (hfault : (Scanned.token (Trivia.before l.cursor).stop).fault = none) :
    l.scan.diagnostics = l.diagnostics := by
  rw [scan, hunclosed, hfault]
  rfl

/-- On a text that is made of lexemes nothing is wrong with the next token. -/
lemma diagnostics_scan_of_spells {l : Lexer} {ts : List Lexeme} (h : Spells l.cursor.rest ts) :
    l.scan.diagnostics = l.diagnostics := by
  cases ts with
  | nil =>
    obtain ⟨cs, pos, hbefore, hclosing⟩ := h.before_nil l.cursor.pos
    obtain ⟨-, k, -, pos', htoken⟩ := hclosing.token pos
    exact diagnostics_scan_eq (by rw [hbefore]) (by rw [hbefore, htoken])
  | cons t ts =>
    obtain ⟨cs, pos, hbefore, hstands, -⟩ := h.before_cons l.cursor.pos
    have hfault : (Scanned.token ⟨t.text ++ cs, pos⟩).joined.fault = none := by
      rw [hstands.token]
    refine diagnostics_scan_eq (by rw [hbefore]) ?_
    rw [hbefore, ← hfault, Scanned.joined]
    split <;> rfl

/-- A lexer at the first of some lexemes, behind which the text closes. -/
def Spelled (l : Lexer) (ts : List Lexeme) : Prop :=
  ∃ l₀ : Lexer, l₀.source = l.source ∧ l₀.cursor.On l.source ∧ Spells l₀.cursor.rest ts ∧
    (l.Agrees l₀.scan ∨ l.Agrees l₀.scan.rescanGreater)

lemma spelled_scan {l : Lexer} {ts : List Lexeme} (hon : l.cursor.On l.source)
    (h : Spells l.cursor.rest ts) : l.scan.Spelled ts :=
  ⟨l, (source_scan l).symm, by rwa [source_scan], h, .inl (.refl _)⟩

namespace Spelled

variable {l : Lexer} {t : Lexeme} {ts : List Lexeme}

lemma rescanGreater (h : l.Spelled ts) : l.rescanGreater.Spelled ts := by
  obtain ⟨l₀, hsource, hon, hspells, hagrees⟩ := h
  refine ⟨l₀, by rwa [source_rescanGreater], by rwa [source_rescanGreater], hspells, .inr ?_⟩
  rcases hagrees with hagrees | hagrees
  · exact hagrees.rescanGreater
  · exact hagrees.rescanGreater.trans (rescanGreater_idem _)

/-- The text holds all of the lexemes. -/
lemma length_le (h : l.Spelled ts) : ts.length ≤ l.source.size := by
  obtain ⟨l₀, -, hon, hspells, -⟩ := h
  have hsize := hon.size_eq
  have hlen := hspells.length_le
  omega

/-- What is read at the first lexeme, once a `>` is extended. -/
structure First (l : Lexer) (t : Lexeme) (ts : List Lexeme) : Prop where
  kind : l.token.kind = t.kind
  value : l.token.value = t.value
  afterLineBreak : l.token.afterLineBreak = false
  scan : l.scan.Spelled ts
  diagnostics : l.scan.diagnostics = l.diagnostics

lemma first (h : l.Spelled (t :: ts)) : First l.rescanGreater t ts := by
  obtain ⟨l₀, hsource, hon, hspells, hagrees⟩ := h
  have hagrees : l.rescanGreater.Agrees l₀.scan.rescanGreater := by
    rcases hagrees with hagrees | hagrees
    · exact hagrees.rescanGreater
    · exact hagrees.rescanGreater.trans (rescanGreater_idem _)
  obtain ⟨cs, pos, hbefore, hstands, hrest⟩ := hspells.before_cons l₀.cursor.pos
  have hbefore : Trivia.before l₀.cursor = ⟨⟨t.text ++ cs, pos⟩, false, false⟩ := hbefore
  obtain ⟨hkind, hvalue, hcursor, hline⟩ := rescanGreater_scan l₀
  rw [hbefore] at hkind hvalue hcursor hline
  rw [hstands.token] at hkind hvalue hcursor
  have hcursor : l.rescanGreater.cursor = ⟨cs, pos + byteLength t.text⟩ :=
    hagrees.cursor.trans hcursor
  have hrest : Spells l.rescanGreater.cursor.rest ts := by rwa [hcursor]
  have hplace : l.rescanGreater.cursor.On l.source := by
    rw [hagrees.cursor]
    exact (sound_scan hsource hon).rescanGreater.cursor
  exact {
    kind := by rw [hagrees.token, hkind]
    value := by rw [hagrees.token, hvalue]
    afterLineBreak := by rw [hagrees.token, hline]
    scan := spelled_scan (by rwa [source_rescanGreater]) hrest
    diagnostics := diagnostics_scan_of_spells hrest }

/-- At a lexeme that does not begin with `>` there is nothing to extend. -/
lemma first_of_kind (h : l.Spelled (t :: ts)) (hkind : t.kind ∉ TokenKind.greaterKinds) :
    First l t ts := by
  have hfirst := h.first
  rwa [eq_of_rescanGreater (by rwa [hfirst.kind])] at hfirst

/-- What is read behind the last lexeme: a semicolon and the end of the file, or the end. -/
structure Last (l : Lexer) : Prop where
  kind : l.token.kind = .endOfFile ∨ l.token.kind = .semicolon ∧ l.scan.token.kind = .endOfFile
  diagnostics : l.token.kind = .semicolon → l.scan.diagnostics = l.diagnostics

lemma last (h : l.Spelled []) : Last l := by
  obtain ⟨l₀, hsource, hon, hspells, hagrees⟩ := h
  obtain ⟨cs, pos, hbefore, hclosing⟩ := hspells.before_nil l₀.cursor.pos
  have hbefore : Trivia.before l₀.cursor = ⟨⟨cs, pos⟩, false, false⟩ := hbefore
  obtain ⟨-, k, hk, pos', htoken⟩ := hclosing.token pos
  have hkind : l₀.scan.token.kind = k := by rw [token_scan, hbefore, htoken]
  have hagrees : l.Agrees l₀.scan := by
    rcases hagrees with hagrees | hagrees
    · exact hagrees
    · rwa [rescanGreater_eq_self] at hagrees
      rw [hkind]
      rcases hk with rfl | rfl <;> simp
  have hcursor : l.cursor = ⟨[], pos'⟩ := by rw [hagrees.cursor, cursor_scan, hbefore, htoken]
  have hlast : l.scan.token.kind = .endOfFile := by
    rw [token_scan, hcursor]
    rfl
  refine ⟨?_, fun _ => diagnostics_scan_eq (by rw [hcursor]; rfl) (by rw [hcursor]; rfl)⟩
  rw [hagrees.token, hkind]
  exact hk.imp_right fun hsemicolon => ⟨hsemicolon, hlast⟩

/-- At a token that does not begin with `>`, the lexer scans the parts of the lexemes. -/
lemma scans (h : l.Spelled ts) (hkind : l.token.kind ∉ TokenKind.greaterKinds) :
    ∃ tail ∈ closings, l.Scans (rawKinds ts ++ tail) := by
  obtain ⟨l₀, -, -, hspells, hagrees⟩ := h
  obtain ⟨tail, htail, hscans⟩ := hspells.scans
  have hagrees : l.Agrees l₀.scan := by
    rcases hagrees with hagrees | hagrees
    · exact hagrees
    · rw [hagrees.token] at hkind
      rwa [eq_of_rescanGreater hkind] at hagrees
  exact ⟨tail, htail, hagrees.scans (scans_scan (hscans l₀.cursor.pos))⟩

end Spelled

end Lexer

end InlineValues

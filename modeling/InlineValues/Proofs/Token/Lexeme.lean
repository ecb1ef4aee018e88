import InlineValues.Proofs.Token.Lexer
import InlineValues.Proofs.Token.Operand
import Mathlib.Data.List.Find

/-!
# Tokens without places

A `Lexeme` is a token without its place: its kind, its value and its characters.  It stands in front
of a text (`Lexeme.StandsAt`) if its characters, followed by that text, are read as this token and
nothing more.  Operands and names do so in front of whatever ends them (`Lexeme.IsAtom.standsAt`),
and punctuation does where the next character does not make it longer (`standsAt_sign`).

A `>` is read in one step by itself, and extended when the grammar asks for it.  A lexeme is what it
is extended to (`Scanned.joined`).
-/

namespace InlineValues

/-! ## Punctuation -/

namespace TokenKind

/-- The punctuation that is read in one step, wherever it stands. -/
def signs : List TokenKind :=
  operators.filter fun k => k != questionDot && k != dot && k != dotDotDot

/-- The characters that make punctuation longer, or a comment of it. -/
def extensions (k : TokenKind) : List Char :=
  (if k == slash then ['/', '*'] else []) ++
    operators.filterMap fun longer =>
      if k.spelling.isPrefixOf longer.spelling then longer.spelling[k.spelling.length]? else none

lemma find?_operators :
    ∀ k ∈ signs, operators.find? (fun k' => k'.spelling.isPrefixOf k.spelling) = some k := by
  decide +kernel

lemma questionDot_not_prefix :
    ∀ k ∈ signs, questionDot.spelling.isPrefixOf k.spelling = false := by
  decide

/-- Punctuation that is not made longer is read as it stands. -/
lemma operator?_append {k : TokenKind} (hk : k ∈ signs) {cs : List Char}
    (hcs : ∀ c ∈ cs.head?, c ∉ k.extensions) :
    operator? (k.spelling ++ cs) = some (k, k.spelling.length) := by
  have hprefix (k' : TokenKind) (hk' : k' ∈ operators) :
      k'.spelling.isPrefixOf (k.spelling ++ cs) = k'.spelling.isPrefixOf k.spelling := by
    rw [Bool.eq_iff_iff, List.isPrefixOf_iff_prefix, List.isPrefixOf_iff_prefix]
    refine ⟨fun h => ?_, fun h => h.trans (List.prefix_append _ _)⟩
    rcases List.prefix_or_prefix_of_prefix h (List.prefix_append k.spelling cs) with h' | h'
    · exact h'
    -- Otherwise the next character is the one that makes it longer.
    obtain ⟨tail, htail⟩ := h'
    cases tail with
    | nil =>
      exact ⟨[], by rw [← htail, List.append_nil, List.append_nil]⟩
    | cons c tail =>
      exfalso
      rw [← htail, List.prefix_append_right_inj] at h
      have hc : c ∈ cs.head? := by
        obtain ⟨rest, hrest⟩ := h
        rw [← hrest]
        rfl
      refine hcs c hc (List.mem_append_right _ (List.mem_filterMap.mpr ⟨k', hk', ?_⟩))
      rw [if_pos (List.isPrefixOf_iff_prefix.mpr ⟨c :: tail, htail⟩), ← htail]
      simp
  have hsame : operators.find? (·.standsAt (k.spelling ++ cs)) =
      operators.find? (fun k' => k'.spelling.isPrefixOf k.spelling) := by
    refine List.find?_congr fun k' hk' => ?_
    rw [standsAt, hprefix k' hk']
    cases hdot : k' == questionDot with
    | true => rw [eq_of_beq hdot, questionDot_not_prefix k hk, Bool.false_and]
    | false => rw [Bool.false_and, Bool.not_false, Bool.and_true]
  rw [operator?_eq, hsame, find?_operators k hk, Option.map_some]

/-- No operand and no name begins with `>`. -/
lemma notMem_greaterKinds_of_isAtom {k : TokenKind} (h : k.isAtom = true) :
    k ∉ greaterKinds := by
  have hnone : ∀ k ∈ greaterKinds, k.isAtom = false := by decide
  intro hmem
  rw [hnone k hmem] at h
  cases h

lemma isAtom_of_isOperand {k : TokenKind} (h : k.isOperand = true) : k.isAtom = true := by
  rw [isAtom, h, Bool.true_or]

lemma isAtom_of_isName {k : TokenKind} (h : k.isName = true) : k.isAtom = true := by
  rw [isAtom, h, Bool.or_true]

end TokenKind

/-! ## Tokens in front of a text -/

/-- A character that is neither blank nor starts a comment starts a token. -/
lemma Trivia.before_front {c : Char} {cs : List Char} (hline : isLineBreak c = false)
    (hblank : isBlank c = false) (hslash : c = '/' → ∀ d ∈ cs.head?, d ≠ '/' ∧ d ≠ '*')
    (pos : Nat) :
    before ⟨c :: cs, pos⟩ = ⟨⟨c :: cs, pos⟩, false, false⟩ := by
  rw [before, walk.eq_4]
  · simp [hline, hblank]
  · rintro rest rfl rfl
    exact (hslash rfl _ rfl).1 rfl
  · rintro rest rfl rfl
    exact (hslash rfl _ rfl).2 rfl

namespace Scanned

/-- What a token is before a `>` is extended.  A keyword is one by its value. -/
structure Raw (t : Scanned) : Prop where
  greater : t.kind ∈ TokenKind.greaterKinds → t.kind = .greaterThan
  keyword : t.kind.isAnyKeyword = true → TokenKind.ofWord? t.value = some t.kind

/-- What is neither a keyword nor an operator that begins with `>`. -/
lemma Raw.of_kind {t : Scanned} (ks : List TokenKind) (h : t.kind ∈ ks)
    (hks : ∀ k ∈ ks, (k ∈ TokenKind.greaterKinds → k = .greaterThan) ∧ k.isAnyKeyword = false) :
    t.Raw :=
  ⟨(hks _ h).1, fun hkeyword => by rw [(hks _ h).2] at hkeyword; cases hkeyword⟩

lemma raw_word (start : Cursor) : (word start).Raw := by
  have hkeywords : ∀ k ∈ TokenKind.keywords, k ∉ TokenKind.greaterKinds := by decide
  rw [word]
  cases hword : TokenKind.ofWord? (start.textTo (start.advance.skipWhile isIdentifierPart)) with
  | none => exact .of_kind [.identifier] (by simp) (by decide)
  | some k =>
    have hkind := TokenKind.mem_keywords_of_ofWord? hword
    exact ⟨fun h => absurd h (hkeywords k hkind), fun _ => hword⟩

lemma raw_token (start : Cursor) : (token start).Raw := by
  have hpieces : ∀ k : TokenKind, k.isTemplatePiece = true →
      (k ∈ TokenKind.greaterKinds → k = .greaterThan) ∧ k.isAnyKeyword = false := by
    intro k
    cases k
    all_goals first | exact fun h => absurd h (by decide) | exact fun _ => by decide
  rw [token]
  split
  · exact .of_kind [.endOfFile] (by simp) (by decide)
  split
  · refine .of_kind [.stringLiteral] ?_ (by decide)
    rw [string]
    split <;> simp
  split
  · exact .of_kind _ (List.mem_singleton_self _) (by simpa using hpieces _ (kind_template _ _))
  split
  · exact .of_kind _ (closesNumber_number start).kind (by decide)
  split
  · exact .of_kind [.privateIdentifier] (by simp [privateName]) (by decide)
  split
  · exact raw_word start
  split
  case h_1 k length hk =>
    exact .of_kind TokenKind.operators (TokenKind.stands_of_operator? hk).1 (by decide)
  case h_2 => exact .of_kind [.unknown] (by simp [invalid]) (by decide)

end Scanned

/-- A `>`, extended to the longest operator that begins with it. -/
def Scanned.joined (t : Scanned) : Scanned :=
  if t.kind == .greaterThan then
    let (kind, length) := Lexer.greaterOperator t.stop.rest
    { t with kind, stop := t.stop.skip length }
  else t

lemma Scanned.joined_eq_self {t : Scanned} (h : t.kind ≠ .greaterThan) : t.joined = t := by
  rw [joined, if_neg (by simpa using h)]

lemma Scanned.joined_greaterThan (stop : Cursor) :
    joined { kind := .greaterThan, value := [], stop } =
      { kind := (Lexer.greaterOperator stop.rest).1, value := []
        stop := stop.skip (Lexer.greaterOperator stop.rest).2 } := rfl

/-- A token without its place. -/
structure Lexeme where
  kind : TokenKind
  value : List Char
  text : List Char

namespace Lexeme

/-- The lexeme of punctuation or of a keyword. -/
def ofKind (k : TokenKind) : Lexeme := ⟨k, if k.isAnyKeyword then k.spelling else [], k.spelling⟩

/-- In front of a text, the characters of a lexeme are read as that token and nothing more. -/
structure StandsAt (t : Lexeme) (cs : List Char) : Prop where
  ne_nil : t.text ≠ []
  trivia : ∀ pos, Trivia.before ⟨t.text ++ cs, pos⟩ = ⟨⟨t.text ++ cs, pos⟩, false, false⟩
  token : ∀ pos, (Scanned.token ⟨t.text ++ cs, pos⟩).joined =
    { kind := t.kind, value := t.value, stop := ⟨cs, pos + byteLength t.text⟩ }

end Lexeme

/-! ## Punctuation in front of a text -/

/-- The characters that punctuation starts with start nothing else. -/
lemma signs_front : ∀ k ∈ TokenKind.signs, k.spelling.head?.any (fun c =>
    !(c == '\x22' || c == '\x27' || c == '\x60' || c == '#' || c == '.' || isDecimalDigit c ||
      isIdentifierStart c || isLineBreak c || isBlank c)) = true := by
  decide

lemma Scanned.token_sign {k : TokenKind} (hk : k ∈ TokenKind.signs) {cs : List Char}
    (hcs : ∀ c ∈ cs.head?, c ∉ k.extensions) (pos : Nat) :
    token ⟨k.spelling ++ cs, pos⟩ =
      { kind := k, value := [], stop := ⟨cs, pos + byteLength k.spelling⟩ } := by
  have hoperator := TokenKind.operator?_append hk hcs
  have hskip := Cursor.skip_append k.spelling cs pos
  have hfront := signs_front k hk
  obtain ⟨c, more, hspelling⟩ : ∃ c more, k.spelling = c :: more := by
    cases hspelling : k.spelling with
    | nil => simp [hspelling] at hfront
    | cons c more => exact ⟨c, more, rfl⟩
  rw [hspelling] at hfront
  simp only [List.head?_cons, Option.any_some, Bool.not_eq_true', Bool.or_eq_false_iff] at hfront
  obtain ⟨⟨⟨⟨⟨⟨⟨⟨h₁, h₂⟩, h₃⟩, h₄⟩, h₅⟩, h₆⟩, h₇⟩, -⟩, -⟩ := hfront
  rw [hspelling, List.cons_append] at hoperator hskip ⊢
  simp only [token, h₁, h₂, h₃, h₄, h₅, h₆, h₇, hoperator, Bool.or_self, Bool.false_and,
    Bool.false_eq_true, if_false]
  rw [hskip]

lemma blank_notMem_extensions : ∀ k ∈ TokenKind.signs, ' ' ∉ k.extensions := by
  decide

lemma isAnyKeyword_sign :
    ∀ k ∈ TokenKind.signs ++ TokenKind.greaterKinds, k.isAnyKeyword = false := by
  decide

/-- Only the slash starts a comment together with the character behind it. -/
lemma signs_slash : ∀ k ∈ TokenKind.signs, k.spelling.head? = some '/' →
    k = .slash ∨ k.spelling.tail.head? = some '=' := by
  decide

/-- No blank and no comment starts with punctuation that is not made longer. -/
lemma Trivia.before_sign {k : TokenKind} (hk : k ∈ TokenKind.signs) {cs : List Char}
    (hcs : ∀ c ∈ cs.head?, c ∉ k.extensions) (pos : Nat) :
    before ⟨k.spelling ++ cs, pos⟩ = ⟨⟨k.spelling ++ cs, pos⟩, false, false⟩ := by
  have hfront := signs_front k hk
  have hslash := signs_slash k hk
  cases hspelling : k.spelling with
  | nil => simp [hspelling] at hfront
  | cons c more =>
    rw [hspelling] at hfront hslash
    simp only [List.head?_cons, Option.any_some, Bool.not_eq_true', Bool.or_eq_false_iff] at hfront
    rw [List.cons_append]
    refine before_front hfront.1.2 hfront.2 ?_ pos
    rintro rfl d hd
    rcases hslash rfl with rfl | hequals
    · obtain rfl : more = [] := (List.cons.inj hspelling).2.symm
      have := hcs d hd
      exact ⟨by rintro rfl; exact this (by decide), by rintro rfl; exact this (by decide)⟩
    · cases more with
      | nil => cases hequals
      | cons e more =>
        cases hequals
        cases hd
        decide

namespace Lexeme

theorem standsAt_sign {k : TokenKind} (hk : k ∈ TokenKind.signs) (hne : k ≠ .greaterThan)
    {cs : List Char} (hcs : ∀ c ∈ cs.head?, c ∉ k.extensions) : (ofKind k).StandsAt cs where
  ne_nil hnil := by
    have hfront := signs_front k hk
    change k.spelling = [] at hnil
    rw [hnil] at hfront
    cases hfront
  trivia := Trivia.before_sign hk hcs
  token pos := by
    have hkeyword := isAnyKeyword_sign k (List.mem_append_left _ hk)
    rw [ofKind, Scanned.token_sign hk hcs, Scanned.joined_eq_self hne, hkeyword]
    rfl

lemma extensions_greaterThan : TokenKind.greaterThan.extensions = [] := by decide

/-- A `>` is read by itself, whatever follows it. -/
lemma token_greaterThan (cs : List Char) (pos : Nat) :
    Scanned.token ⟨'>' :: cs, pos⟩ =
      { kind := .greaterThan, value := [], stop := ⟨cs, pos + 1⟩ } :=
  Scanned.token_sign (k := .greaterThan) (by decide) (by simp [extensions_greaterThan]) pos

/-- The characters behind a `>` decide what it is extended to. -/
lemma greaterOperator_spelling : ∀ k ∈ TokenKind.greaterKinds, ∀ cs : List Char,
    Lexer.greaterOperator (k.spelling.tail ++ ' ' :: cs) = (k, k.spelling.tail.length) ∧
      k.spelling = '>' :: k.spelling.tail := by
  intro k hk cs
  simp only [TokenKind.greaterKinds, List.mem_cons, List.not_mem_nil, or_false] at hk
  rcases hk with rfl | rfl | rfl | rfl | rfl | rfl <;> exact ⟨rfl, rfl⟩

lemma standsAt_greater {k : TokenKind} (hk : k ∈ TokenKind.greaterKinds) (cs : List Char) :
    (ofKind k).StandsAt (' ' :: cs) := by
  obtain ⟨hkind, hspelling⟩ := greaterOperator_spelling k hk cs
  have hkeyword := isAnyKeyword_sign k (List.mem_append_right _ hk)
  refine ⟨by rw [ofKind, hspelling]; exact List.cons_ne_nil _ _, fun pos => ?_, fun pos => ?_⟩
  · rw [ofKind, hspelling]
    exact Trivia.before_front rfl rfl (fun h => absurd h (by decide)) pos
  · have hskip := Cursor.skip_append k.spelling.tail (' ' :: cs) (pos + 1)
    have hlen : byteLength k.spelling = 1 + byteLength k.spelling.tail := by
      rw [hspelling, byteLength_cons]
      rfl
    rw [ofKind, hkeyword, hlen]
    dsimp only
    rw [hspelling, List.cons_append, token_greaterThan, List.tail_cons,
      Scanned.joined_greaterThan, hkind, hskip, Nat.add_assoc]
    rfl

/-- The words that are operators. -/
def operatorWords : List TokenKind := [.inKeyword, .instanceOfKeyword]

lemma operatorWords_subset : operatorWords ⊆ TokenKind.keywords := by decide

/-- The characters that keywords are made of. -/
lemma keywords_front : ∀ k ∈ TokenKind.keywords, k.spelling.tail.all isIdentifierPart = true ∧
    k.spelling.head?.any (fun c =>
      isIdentifierStart c && !isLineBreak c && !isBlank c && c != '/') = true := by
  decide +kernel

lemma standsAt_word {k : TokenKind} (hk : k ∈ TokenKind.keywords) (cs : List Char) :
    (ofKind k).StandsAt (' ' :: cs) := by
  obtain ⟨hmore, hfront⟩ := keywords_front k hk
  have hword := TokenKind.ofWord?_spelling k hk
  have hkind : ∀ k ∈ TokenKind.keywords, k.isAnyKeyword = true ∧ k ≠ .greaterThan := by decide
  cases hspelling : k.spelling with
  | nil => simp [hspelling] at hfront
  | cons c more =>
    rw [hspelling] at hmore hfront hword
    rw [List.tail_cons] at hmore
    simp only [List.head?_cons, Option.any_some, Bool.and_eq_true, Bool.not_eq_true',
      bne_iff_ne] at hfront
    obtain ⟨⟨⟨hstart, hline⟩, hblank⟩, hslash⟩ := hfront
    refine ⟨by rw [ofKind, hspelling]; exact List.cons_ne_nil _ _, fun pos => ?_, fun pos => ?_⟩
    · rw [ofKind, hspelling]
      exact Trivia.before_front hline hblank (fun h => absurd h hslash) pos
    · have hread : Scanned.token ⟨k.spelling ++ ' ' :: cs, pos⟩ =
          { kind := k, value := k.spelling
            stop := ⟨' ' :: cs, pos + byteLength k.spelling⟩ } := by
        rw [hspelling, List.cons_append, Scanned.token_eq_word hstart, ← List.cons_append,
          Scanned.word_append hmore rfl, hword]
        rfl
      rw [ofKind, hread, Scanned.joined_eq_self (hkind k hk).2, (hkind k hk).1]
      rfl

/-! ## Points in front of a text -/

/-- A point stands in front of what is no number and no other point. -/
lemma standsAt_dot {cs : List Char} (hcs : ∀ c ∈ cs.head?, c ≠ '.' ∧ isDecimalDigit c = false) :
    (ofKind .dot).StandsAt cs where
  ne_nil := List.cons_ne_nil _ _
  trivia := Trivia.before_front rfl rfl fun h => absurd h (by decide)
  token pos := by
    have hread : Scanned.token ⟨'.' :: cs, pos⟩ =
        { kind := .dot, value := [], stop := ⟨cs, pos + 1⟩ } := by
      cases cs with
      | nil => rfl
      | cons c cs =>
        obtain ⟨hpoint, hdigit⟩ := hcs c rfl
        have hfront : isDecimalDigit '.' = false ∧ isIdentifierStart '.' = false := by decide
        have hoperator : TokenKind.operator? ('.' :: c :: cs) = some (.dot, 1) := by
          simp [TokenKind.operator?, TokenKind.punctuation, List.isPrefixOf, hpoint.symm]
        simp only [Scanned.token, hoperator, List.head?_cons, Option.any_some, hdigit, hfront]
        rfl
    change (Scanned.token ⟨'.' :: cs, pos⟩).joined = _
    rw [hread]
    rfl

/-- A `?.` stands in front of what is no number. -/
lemma standsAt_questionDot {cs : List Char} (hcs : ∀ c ∈ cs.head?, isDecimalDigit c = false) :
    (ofKind .questionDot).StandsAt cs where
  ne_nil := List.cons_ne_nil _ _
  trivia := Trivia.before_front rfl rfl fun h => absurd h (by decide)
  token pos := by
    have hdigit : cs.head?.any isDecimalDigit = false := by
      cases cs with
      | nil => rfl
      | cons c cs => exact hcs c rfl
    have hfront : isDecimalDigit '?' = false ∧ isIdentifierStart '?' = false := by decide
    have hoperator : TokenKind.operator? ('?' :: '.' :: cs) = some (.questionDot, 2) := by
      simp [TokenKind.operator?, TokenKind.punctuation, List.isPrefixOf, hdigit]
    have hread : Scanned.token ⟨'?' :: '.' :: cs, pos⟩ =
        { kind := .questionDot, value := [], stop := ⟨cs, pos + 2⟩ } := by
      simp only [Scanned.token, hoperator, hfront]
      rfl
    change (Scanned.token ⟨'?' :: '.' :: cs, pos⟩).joined = _
    rw [hread]
    rfl

/-! ## Operands and names in front of a text -/

/-- A lexeme that is an operand or a name. -/
structure IsAtom (t : Lexeme) : Prop where
  atom : t.kind.isAtom = true
  detached : Scanned.Detached t.kind.EndsAt Scanned.token t.text t.kind t.value
  front : ∃ c cs, t.text = c :: cs ∧ t.kind.Starts c ∧ isLineBreak c = false ∧ isBlank c = false

theorem IsAtom.standsAt {t : Lexeme} (h : t.IsAtom) {cs : List Char} (hcs : t.kind.EndsAt cs) :
    t.StandsAt cs where
  ne_nil := by
    obtain ⟨c, more, htext, -⟩ := h.front
    rw [htext]
    exact List.cons_ne_nil _ _
  trivia pos := by
    obtain ⟨c, more, htext, hstart, hline, hblank⟩ := h.front
    rw [htext, List.cons_append]
    refine Trivia.before_front hline hblank ?_ pos
    rintro rfl
    rcases Bool.or_eq_true_iff.mp h.atom with hoperand | hname
    · exact absurd (hstart.operand hoperand) (by decide)
    · exact absurd (hstart.name hname) (by decide)
  token pos := by
    rw [h.detached.read cs pos hcs, Scanned.joined_eq_self]
    intro hgreater
    have hatom := h.atom
    simp only at hgreater
    rw [hgreater] at hatom
    cases hatom

/-- A lexeme that is an expression of its own. -/
structure IsOperand (t : Lexeme) : Prop extends t.IsAtom where
  kind : t.kind.isOperand = true

lemma IsOperand.front_operand {t : Lexeme} (h : t.IsOperand) :
    ∃ c cs, t.text = c :: cs ∧ startsOperand c = true := by
  obtain ⟨c, cs, htext, hstart, -⟩ := h.front
  exact ⟨c, cs, htext, hstart.operand h.kind⟩

/-- The operand or name that is read where trivia ends. -/
lemma exists_isAtom {c : Cursor}
    (hkind : (Scanned.token (Trivia.before c).stop).kind.isAtom = true)
    (hfault : (Scanned.token (Trivia.before c).stop).fault = none) :
    ∃ t : Lexeme, t.IsAtom ∧ t.kind = (Scanned.token (Trivia.before c).stop).kind ∧
      t.value = (Scanned.token (Trivia.before c).stop).value ∧
      t.text = (Trivia.before c).stop.textTo (Scanned.token (Trivia.before c).stop).stop := by
  cases hstop : (Trivia.before c).stop with
  | mk rest pos =>
    rw [hstop] at hkind hfault
    cases rest with
    | nil => cases hkind
    | cons a cs =>
      have hfront : (Trivia.before c).stop.rest = a :: cs := by rw [hstop]
      obtain ⟨hline, hblank⟩ := Trivia.front_stop hfront
      obtain ⟨⟨as, rest, kind, value, hsplit, hread, hdetached⟩, hstart⟩ :=
        Scanned.detaches_token hkind hfault
      have hne : as ≠ [] := by
        rintro rfl
        have hne : Cursor.rest ⟨a :: cs, pos⟩ ≠ [] := List.cons_ne_nil a cs
        have hmoves := (Scanned.token_readFrom hne).moves
        rw [hread] at hmoves
        exact absurd hmoves (by simp)
      obtain ⟨b, as, rfl⟩ := List.exists_cons_of_ne_nil hne
      obtain ⟨rfl, -⟩ := List.cons.inj hsplit
      rw [hread] at hkind hdetached hstart
      refine ⟨⟨kind, value, a :: as⟩, ⟨hkind, hdetached, a, as, rfl, hstart, hline, hblank⟩, ?_⟩
      rw [hread, hsplit]
      exact ⟨rfl, rfl, (Cursor.textTo_append _ _ _).symm⟩

end Lexeme

end InlineValues

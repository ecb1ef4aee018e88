import InlineValues.Proofs.Token.Lexer
import InlineValues.Tree.Node

/-!
# Trivia of tokens and trivia of nodes

The lexer passes trivia with `Trivia.walk`, and a node of the tree finds the start of its first
token with `skipTrivia`.  The two stop at the same offset (`Trivia.pos_walk_passTrivia`).

At the start of the text `skipTrivia` also passes a line that begins with `#!`, which the lexer
passes only when it is told to (`skipTrivia_zero`).  Everywhere else the two agree
(`skipTrivia_eq_tokenStart`), and so they do wherever a token starts that is known to the scanner,
since none begins like that line.  So a leaf for a name starts where its token did
(`Lexer.Sound.skipTrivia_eq`), and its text is that of the token.

Either way trivia ends between two characters (`isCut_skipTrivia`), and neither at a blank nor at
the end of a line (`front_skipTrivia`).
-/

namespace InlineValues

/-! ## One walk and the other -/

/-- Where trivia ends does not depend on the line breaks that were passed. -/
lemma Trivia.stop_walk (place : Place) (b b' : Bool) (rest : List Char) (pos : Nat) :
    (walk place b rest pos).stop = (walk place b' rest pos).stop := by
  fun_induction walk place b rest pos generalizing b' <;> grind [walk]

/-- A line break between comments is passed. -/
lemma Trivia.walk_lineBreak {c : Char} (h : isLineBreak c = true) (b : Bool) (rest : List Char)
    (pos : Nat) : walk .between b (c :: rest) pos = walk .between true rest (pos + c.utf8Size) := by
  have hslash : c ≠ '/' := by
    rintro rfl
    exact absurd h (by decide)
  rw [walk.eq_4 _ _ _ _ (fun _ hc => absurd hc hslash) (fun _ hc => absurd hc hslash), if_pos h]

/-- A line comment is passed up to the end of its line, which is then passed as a line break. -/
lemma Trivia.stop_walk_lineComment (b : Bool) (rest : List Char) (pos n : Nat) :
    (walk .lineComment b rest (pos + n)).stop =
      (walk .between b (passLine rest n).1 (pos + (passLine rest n).2)).stop := by
  fun_induction passLine rest n with
  | case1 n => simp [walk]
  | case2 c cs n hc => rw [walk_lineBreak (isLineBreak_of_endsLine hc), walk.eq_5, if_pos hc]
  | case3 c cs n hc ih => rw [walk, if_neg hc, Nat.add_assoc, ih]

/-- A block comment is passed with its end. -/
lemma Trivia.stop_walk_blockComment (b : Bool) (rest : List Char) (pos n : Nat) :
    (walk .blockComment b rest (pos + n)).stop =
      (walk .between b (passBlockComment rest n).1 (pos + (passBlockComment rest n).2)).stop := by
  fun_induction passBlockComment rest n generalizing b with
  | case1 n => simp [walk]
  | case2 n cs => rw [walk, Nat.add_assoc]
  | case3 n c cs hc ih =>
    rw [walk.eq_7 _ _ _ _ hc, Nat.add_assoc, ih]
    exact stop_walk _ _ _ _ _

/-- The lexer and the tree pass the same trivia. -/
theorem Trivia.pos_walk_passTrivia (b : Bool) (rest : List Char) (pos n : Nat) :
    (walk .between b rest (pos + n)).stop.pos = pos + (passTrivia rest n).2 := by
  fun_induction passTrivia rest n generalizing b with
  | case1 n rest _ ih => rw [walk, Nat.add_assoc, stop_walk_lineComment, ih]
  | case2 n rest _ ih => rw [walk, Nat.add_assoc, stop_walk_blockComment, ih]
  | case3 n c rest hline hblock hblank ih =>
    rw [walk.eq_4 _ _ _ _ hline hblock]
    simp only [Bool.or_eq_true] at hblank
    split
    · rw [Nat.add_assoc, ih]
    · rw [if_pos (by simp_all), Nat.add_assoc, ih]
  | case4 n c rest hline hblock hblank =>
    rw [walk.eq_4 _ _ _ _ hline hblock]
    simp only [Bool.or_eq_true, not_or] at hblank
    rw [if_neg hblank.1, if_neg hblank.2]
  | case5 n => rw [walk]

/-! ## Where trivia ends -/

lemma passShebang_of_plain {cs : List Char} (h : ¬['#', '!'] <+: cs) :
    passShebang cs = (cs, 0) := by
  unfold passShebang
  split
  case h_1 rest => exact absurd ⟨rest, rfl⟩ h
  case h_2 => rfl

lemma le_passLine (cs : List Char) (n : Nat) : n ≤ (passLine cs n).2 := by
  fun_induction passLine cs n with
  | case1 | case2 => exact Nat.le_refl _
  | case3 c cs n hc ih => exact Nat.le_trans (Nat.le_add_right _ _) ih

lemma le_passShebang {cs : List Char} (h : ['#', '!'] <+: cs) : 2 ≤ (passShebang cs).2 := by
  obtain ⟨rest, rfl⟩ := h
  exact le_passLine rest 2

/-- Without a first line that begins with `#!`, or behind its start, a node passes the trivia that
the lexer passes. -/
theorem skipTrivia_eq_tokenStart {s : Source} {p : Nat} (hp : p ≤ s.size)
    (hplain : 0 < p ∨ ¬['#', '!'] <+: s.chars) :
    skipTrivia s p = s.tokenStart p := by
  have hwalk : s.tokenStart p = p + (passTrivia (s.suffix p) 0).2 :=
    Trivia.pos_walk_passTrivia false (s.suffix p) p 0
  rw [hwalk]
  simp only [skipTrivia, Nat.min_eq_left hp]
  by_cases hzero : p = 0
  · subst hzero
    have hshebang := passShebang_of_plain (hplain.resolve_left (Nat.lt_irrefl 0))
    have hchars := s.suffix_zero
    simp [hshebang, hchars]
  · simp [hzero]

lemma runFrom_passLine (cs : List Char) (n : Nat) :
    Cursor.runFrom (fun c => !endsLine c) cs n = ⟨(passLine cs n).1, (passLine cs n).2⟩ := by
  fun_induction passLine cs n with
  | case1 n => rfl
  | case2 c cs n hc => simp [Cursor.runFrom, hc]
  | case3 c cs n hc ih => simp [Cursor.runFrom, hc, ih]

/-- The lexer and a node pass the same first line. -/
lemma cursor_skipShebang (s : Source) :
    (Lexer.start s).skipShebang.cursor = ⟨(passShebang s.chars).1, (passShebang s.chars).2⟩ := by
  have hchars := s.suffix_zero
  unfold Lexer.skipShebang
  split
  case h_1 rest _ hrest =>
    replace hrest : s.chars = '#' :: '!' :: rest := hrest
    show Cursor.runFrom _ (s.suffix 0) 0 = _
    rw [hchars, runFrom_passLine, hrest]
    rfl
  case h_2 hplain =>
    have hshebang : passShebang s.chars = (s.chars, 0) := by
      apply passShebang_of_plain
      rintro ⟨rest, hrest⟩
      exact hplain rest rfl hrest.symm
    show s.cursor 0 = _
    rw [hshebang, Source.cursor, hchars]

/-- At the start of a text a node passes a first line that begins with `#!`, and then the trivia
that the lexer passes. -/
theorem skipTrivia_zero (s : Source) :
    skipTrivia s 0 = (Trivia.before (Lexer.start s).skipShebang.cursor).stop.pos := by
  have hwalk := Trivia.pos_walk_passTrivia false (passShebang s.chars).1 0 (passShebang s.chars).2
  rw [Nat.zero_add] at hwalk
  rw [cursor_skipShebang, Trivia.before, hwalk]
  simp [skipTrivia]

/-- Behind a first line that starts with `#!`, or without one, the lexer stands on the text. -/
lemma on_skipShebang (s : Source) : (Lexer.start s).skipShebang.source = s ∧
    (Lexer.start s).skipShebang.cursor.On s := by
  have hstart : (s.cursor 0).On s := Cursor.on_cursor s.isCut_zero
  unfold Lexer.skipShebang
  split
  · exact ⟨rfl, hstart.of_before (Cursor.before_skipWhile ..)⟩
  · exact ⟨rfl, hstart⟩

/-- Trivia ends where a walk over trivia does that starts in the text. -/
lemma exists_before_skipTrivia {s : Source} {p : Nat} (h : s.IsCut p) :
    ∃ c : Cursor, c.On s ∧ skipTrivia s p = (Trivia.before c).stop.pos := by
  by_cases hzero : p = 0
  · subst hzero
    exact ⟨_, (on_skipShebang s).2, skipTrivia_zero s⟩
  · have hpos : 0 < p := Nat.pos_of_ne_zero hzero
    exact ⟨_, Cursor.on_cursor h, skipTrivia_eq_tokenStart h.le_size (.inl hpos)⟩

/-- Trivia ends between two characters. -/
theorem isCut_skipTrivia {s : Source} {p : Nat} (h : s.IsCut p) : s.IsCut (skipTrivia s p) := by
  obtain ⟨c, hc, hskip⟩ := exists_before_skipTrivia h
  rw [hskip]
  exact (hc.of_before (Trivia.before_stop c)).isCut

/-- Where trivia ends, no blank stands and no line ends. -/
theorem front_skipTrivia {s : Source} {p : Nat} {a : Char} (h : s.IsCut p)
    (ha : (s.cursor (skipTrivia s p)).peek? = some a) :
    isLineBreak a = false ∧ isBlank a = false := by
  obtain ⟨c, hc, hskip⟩ := exists_before_skipTrivia h
  rw [hskip, (hc.of_before (Trivia.before_stop c)).eq_cursor] at ha
  obtain ⟨rest, hrest⟩ := List.head?_eq_some_iff.mp ha
  exact Trivia.front_stop hrest

/-! ## The lexer and a node agree -/

/-- **Lexer and tree pass the same trivia.**  From wherever a lexer starts to read, its token starts
where a node that starts there finds its first token, although the two walk over the trivia each in
its own way.  A first line that begins with `#!` is passed by a node at the start of the text, and
by a lexer that is told to. -/
theorem Lexer.start_scan_eq_skipTrivia (s : Source) :
    (∀ (l : Lexer) (p : Nat), l.source = s → 0 < p ∨ ¬['#', '!'] <+: s.chars →
      (l.setPosition p).scan.token.start = skipTrivia s p) ∧
      (Lexer.start s).skipShebang.scan.token.start = skipTrivia s 0 := by
  constructor
  · rintro l p rfl hplain
    have hheld : skipTrivia l.source p = skipTrivia l.source (min p l.source.size) := by
      simp [skipTrivia]
    have hplain' : 0 < min p l.source.size ∨ ¬['#', '!'] <+: l.source.chars := by
      by_cases hempty : l.source.chars = []
      · exact .inr (by simp [hempty])
      · have hsize : l.source.size ≠ 0 := by rwa [l.source.size_eq, Ne, byteLength_eq_zero]
        exact hplain.imp_left fun hp => Nat.lt_min.mpr ⟨hp, Nat.pos_of_ne_zero hsize⟩
    rw [Lexer.token_scan, hheld, skipTrivia_eq_tokenStart (Nat.min_le_right _ _) hplain']
    rfl
  · rw [Lexer.token_scan, skipTrivia_zero]

/-- Behind a first line, over comments that hold line breaks and over a separator, both come to the
same name; and so do they over the first line. -/
theorem Lexer.start_scan_eq_skipTrivia_comments :
    let s := Source.ofString "#!a\r\n/* é\n**/\u2028//b\r c"
    (0 < 5 ∨ ¬['#', '!'] <+: s.chars) ∧
      ((Lexer.start s).setPosition 5).scan.token.start = skipTrivia s 5 ∧
      (Lexer.start s).skipShebang.scan.token.start = skipTrivia s 0 ∧ skipTrivia s 5 = 22 ∧
      skipTrivia s 0 = 22 := by
  intro s
  obtain ⟨hset, hstart⟩ := Lexer.start_scan_eq_skipTrivia s
  have hplain : 0 < 5 ∨ ¬['#', '!'] <+: s.chars := .inl (by decide)
  exact ⟨hplain, hset (Lexer.start s) 5 rfl hplain, hstart, by decide +kernel, by decide +kernel⟩

/-! ## Where a name starts -/

namespace Lexer

variable {s : Source} {l : Lexer}

/-- The text of the current token is what a node finds from the trivia on, unless that is a first
line which begins with `#!`. -/
theorem Sound.skipTrivia_eq (h : l.Sound s)
    (hshebang : ¬['#', '!'] <+: (s.cursor l.token.start).rest) :
    skipTrivia s l.token.fullStart = l.token.start := by
  have hplain : 0 < l.token.fullStart ∨ ¬['#', '!'] <+: s.chars := by
    by_cases hzero : l.token.fullStart = 0
    · refine .inr fun ⟨rest, hrest⟩ => hshebang ?_
      -- The lexer stops in front of `#!`, and the token would start with it.
      have hchars := s.suffix_zero
      have hstop : l.token.start = 0 := by
        rw [← h.trivia, hzero, Source.tokenStart, Source.cursor, hchars, ← hrest]
        show (Trivia.walk .between false ('#' :: '!' :: rest) 0).stop.pos = 0
        rw [Trivia.walk.eq_4 _ _ _ _ (by simp) (by simp)]
        rfl
      rw [hstop, Source.cursor, hchars]
      exact ⟨rest, hrest⟩
    · exact .inl (Nat.pos_of_ne_zero hzero)
  rw [skipTrivia_eq_tokenStart h.fullStart.le_size hplain, h.trivia]

/-- The text of a leaf is that of its token. -/
lemma Sound.slice_eq (h : l.Sound s) (hkind : l.token.kind ≠ .endOfFile)
    (hknown : l.token.kind ≠ .unknown) {n : Node} (hpos : n.pos = l.token.fullStart)
    (hstop : n.stop = l.cursor.pos) :
    s.slice (n.start s) n.stop = (s.cursor l.token.start).textTo l.cursor := by
  have hmoves := h.moves hkind
  have hfull := h.fullStart_le
  have hsize := h.cursor.isCut.le_size
  have hstart : n.start s = l.token.start := by
    rw [Node.start, hpos, hstop, if_pos (by omega), h.skipTrivia_eq (h.plain hknown)]
    omega
  rw [hstart, hstop]
  exact (Cursor.on_cursor h.start).slice_eq h.cursor h.start_le

/-- The value of a name is the text of the leaf that it becomes. -/
lemma Sound.value_eq (h : l.Sound s) (hname : l.token.kind.isName = true) {n : Node}
    (hpos : n.pos = l.token.fullStart) (hstop : n.stop = l.cursor.pos) :
    l.token.value = s.slice (n.start s) n.stop := by
  have hkind : l.token.kind ≠ .endOfFile ∧ l.token.kind ≠ .unknown := by
    constructor <;> (intro hk; rw [hk] at hname; cases hname)
  rw [h.spelled hname, h.slice_eq hkind.1 hkind.2 hpos hstop]

/-- In a name no line ends. -/
lemma Sound.oneLine_value (h : l.Sound s) (hname : l.token.kind.isName = true) :
    OneLine l.token.value := by
  rw [h.spelled hname]
  exact h.line (TokenKind.staysOnLine_of_isName hname)

end Lexer

end InlineValues

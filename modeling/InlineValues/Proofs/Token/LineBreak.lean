import InlineValues.Proofs.Text.Comment
import Mathlib.Data.List.Basic

/-!
# Line breaks in front of a token

Where no semicolon is written, a line break in front of the next token stands for it.  The lexer
notes a break on three paths: between comments, where all four characters of `isLineBreak` count, in
the text of a block comment, and behind a line comment, where only a line feed and a carriage return
do.  A separator character in a comment is therefore not noted.

`Trivia.outside` is what stands between the comments from a place of the walk on, so that the walk
and the characters it passes can be compared by one induction (`Trivia.lineBreak_walk`).
-/

namespace InlineValues
namespace Trivia

/-- The characters that a walk over trivia passes outside of comments, from a place on. -/
def outside : Place → List Char → List Char
  | .between, cs => betweenComments cs
  | .lineComment, cs => betweenComments (passLine cs 0).1
  | .blockComment, cs => betweenComments (passBlockComment cs 0).1

/-- Up to a cursor a line break is passed that counts. -/
def PassesBreak (place : Place) (c d : Cursor) : Prop :=
  (∃ a ∈ c.textTo d, endsLine a = true) ∨ ∃ a ∈ outside place c.rest, isLineBreak a = true

section

variable {place place' : Place} {a : Char} {rest : List Char} {pos : Nat} {d : Cursor}

/-- Nothing is passed at the end of the text, or in front of a token. -/
lemma not_passesBreak_self (h : outside place rest = []) :
    ¬PassesBreak place ⟨rest, pos⟩ ⟨rest, pos⟩ := by
  rw [PassesBreak, Cursor.textTo_self, h]
  simp

/-- The marks of a comment do not count. -/
lemma passesBreak_marks (as : List Char) (has : OneLine as)
    (hd : Cursor.Before ⟨rest, pos + byteLength as⟩ d)
    (houtside : outside place (as ++ rest) = outside place' rest) :
    PassesBreak place ⟨as ++ rest, pos⟩ d ↔
      PassesBreak place' ⟨rest, pos + byteLength as⟩ d := by
  have hmarks : Cursor.Before ⟨as ++ rest, pos⟩ ⟨rest, pos + byteLength as⟩ := ⟨as, rfl, rfl⟩
  have hnone : ¬∃ a ∈ as, endsLine a = true := fun ⟨a, ha, hline⟩ => by
    rw [has a ha] at hline
    cases hline
  rw [PassesBreak, PassesBreak, Cursor.textTo_trans hmarks hd, Cursor.textTo_append, houtside]
  simp only [List.mem_append, or_and_right, exists_or, hnone, false_or]

/-- A character of a comment counts if it ends a line. -/
lemma passesBreak_comment (hd : Cursor.Before ⟨rest, pos + a.utf8Size⟩ d)
    (houtside : outside place (a :: rest) = outside place rest) :
    PassesBreak place ⟨a :: rest, pos⟩ d ↔
      endsLine a = true ∨ PassesBreak place ⟨rest, pos + a.utf8Size⟩ d := by
  rw [PassesBreak, PassesBreak, Cursor.textTo_cons hd, houtside, List.exists_mem_cons_iff, or_assoc]

/-- A character outside of comments counts if it is a line break. -/
lemma passesBreak_gap (hd : Cursor.Before ⟨rest, pos + a.utf8Size⟩ d)
    (houtside : outside place (a :: rest) = a :: outside .between rest) :
    PassesBreak place ⟨a :: rest, pos⟩ d ↔
      isLineBreak a = true ∨ PassesBreak .between ⟨rest, pos + a.utf8Size⟩ d := by
  have hbreak := @isLineBreak_of_endsLine a
  rw [PassesBreak, PassesBreak, Cursor.textTo_cons hd, houtside, List.exists_mem_cons_iff,
    List.exists_mem_cons_iff, or_or_or_comm, or_iff_right_of_imp hbreak]

end

/-! ## What stands outside of comments -/

section

variable {a : Char} {rest : List Char}

lemma outside_openLine : outside .between (['/', '/'] ++ rest) = outside .lineComment rest := by
  rw [outside, outside, List.cons_append, List.cons_append, List.nil_append, betweenComments]

lemma outside_openBlock : outside .between (['/', '*'] ++ rest) = outside .blockComment rest := by
  rw [outside, outside, List.cons_append, List.cons_append, List.nil_append, betweenComments]

lemma outside_closeBlock :
    outside .blockComment (['*', '/'] ++ rest) = outside .between rest := by
  rw [outside, outside, List.cons_append, List.cons_append, List.nil_append, passBlockComment]

lemma outside_lineComment (ha : ¬endsLine a = true) :
    outside .lineComment (a :: rest) = outside .lineComment rest := by
  rw [outside, outside, passLine, if_neg ha, fst_passLine rest _ 0]

/-- Behind a line comment its line ends. -/
lemma outside_lineEnd (ha : endsLine a = true) :
    outside .lineComment (a :: rest) = a :: outside .between rest := by
  have hslash : a ≠ '/' := by
    rintro rfl
    exact absurd ha (by decide)
  rw [outside, outside, passLine, if_pos ha, betweenComments.eq_3 _ _ (fun _ h => absurd h hslash)
    (fun _ h => absurd h hslash), if_pos (by simp [isLineBreak_of_endsLine ha])]

lemma outside_blockComment (hopen : ∀ tail, a = '*' → rest = '/' :: tail → False) :
    outside .blockComment (a :: rest) = outside .blockComment rest := by
  rw [outside, outside, passBlockComment.eq_3 _ _ _ hopen, fst_passBlockComment rest _ 0]

section

variable (hline : ∀ tail, a = '/' → rest = '/' :: tail → False)
  (hblock : ∀ tail, a = '/' → rest = '*' :: tail → False)

include hline hblock

lemma outside_between (ha : (isLineBreak a || isBlank a) = true) :
    outside .between (a :: rest) = a :: outside .between rest := by
  rw [outside, outside, betweenComments.eq_3 _ _ hline hblock, if_pos ha]

lemma outside_token (hbreak : ¬isLineBreak a = true) (hblank : ¬isBlank a = true) :
    outside .between (a :: rest) = [] := by
  rw [outside, betweenComments.eq_3 _ _ hline hblock, if_neg (by simp [hbreak, hblank])]

end

end

/-! ## The walk -/

/-- A walk notes the line breaks that count, besides those noted before. -/
theorem lineBreak_walk (place : Place) (b : Bool) (rest : List Char) (pos : Nat) :
    (walk place b rest pos).lineBreak = true ↔
      b = true ∨ PassesBreak place ⟨rest, pos⟩ (walk place b rest pos).stop := by
  fun_induction walk place b rest pos with
  | case1 place b pos =>
    have hempty : outside place [] = [] := by
      cases place <;> simp [outside, passLine, passBlockComment, betweenComments]
    simp only [not_passesBreak_self hempty, or_false]
  | case2 b rest pos ih =>
    rw [ih]
    exact or_congr_right (passesBreak_marks ['/', '/'] (by decide) (before_walk ..)
      outside_openLine).symm
  | case3 b rest pos ih =>
    rw [ih]
    exact or_congr_right (passesBreak_marks ['/', '*'] (by decide) (before_walk ..)
      outside_openBlock).symm
  | case4 b a rest pos hline hblock ha ih =>
    rw [ih, passesBreak_gap (before_walk ..) (outside_between hline hblock (by simp [ha]))]
    simp [ha]
  | case5 b a rest pos hline hblock ha hblank ih =>
    rw [ih, passesBreak_gap (before_walk ..) (outside_between hline hblock (by simp [hblank]))]
    simp [ha]
  | case6 b a rest pos hline hblock ha hblank =>
    simp only [not_passesBreak_self (outside_token hline hblock ha hblank), or_false]
  | case7 b a rest pos ha ih =>
    rw [ih, passesBreak_gap (before_walk ..) (outside_lineEnd ha)]
    simp [isLineBreak_of_endsLine ha]
  | case8 b a rest pos ha ih =>
    rw [ih, passesBreak_comment (before_walk ..) (outside_lineComment ha)]
    simp [ha]
  | case9 b rest pos ih =>
    rw [ih]
    exact or_congr_right (passesBreak_marks ['*', '/'] (by decide) (before_walk ..)
      outside_closeBlock).symm
  | case10 b a rest pos hopen ih =>
    rw [ih, passesBreak_comment (before_walk ..) (outside_blockComment hopen), Bool.or_eq_true,
      or_assoc]

end Trivia

/-- **Which line breaks are noted.**  A lexer that starts to read between two characters notes a
line break in front of the next token exactly if a line feed or a carriage return stands in its
trivia, or outside of the comments there any line break.  So the other line breaks count between
comments, and not inside them. -/
theorem Lexer.afterLineBreak_scan {s : Source} {l : Lexer} (hcursor : l.cursor.On s) :
    l.scan.token.afterLineBreak = true ↔
      (∃ a ∈ s.slice l.scan.token.fullStart l.scan.token.start, endsLine a = true) ∨
        ∃ a ∈ betweenComments (s.suffix l.scan.token.fullStart), isLineBreak a = true := by
  have hbefore := Trivia.before_stop l.cursor
  have hwalk := Trivia.lineBreak_walk .between false l.cursor.rest l.cursor.pos
  have hself : s.suffix l.cursor.pos = l.cursor.rest := congrArg Cursor.rest hcursor.eq_cursor
  rw [token_scan]
  dsimp only
  rw [hcursor.slice_eq (hcursor.of_before hbefore) hbefore.pos_le, hself]
  exact hwalk.trans (or_iff_right Bool.false_ne_true)

/-- A separator in a comment is not noted, and neither is one in a line comment that ends with the
text; a carriage return in a comment is, and so is a separator behind it. -/
theorem Lexer.afterLineBreak_scan_separators :
    let s := Source.ofString "/*\u2028*/a/*\r*/b/**/\u2029c//\u2028"
    let l := Lexer.start s
    l.cursor.On s ∧
      (l.scan.token.afterLineBreak = true ↔
        (∃ a ∈ s.slice l.scan.token.fullStart l.scan.token.start, endsLine a = true) ∨
          ∃ a ∈ betweenComments (s.suffix l.scan.token.fullStart), isLineBreak a = true) ∧
      l.scan.token.afterLineBreak = false ∧ l.scan.scan.token.afterLineBreak = true ∧
      l.scan.scan.scan.token.afterLineBreak = true ∧
      l.scan.scan.scan.scan.token.afterLineBreak = false := by
  intro s l
  have hcursor : l.cursor.On s := Cursor.on_cursor s.isCut_zero
  exact ⟨hcursor, afterLineBreak_scan hcursor, by decide +kernel, by decide +kernel,
    by decide +kernel, by decide +kernel⟩

end InlineValues

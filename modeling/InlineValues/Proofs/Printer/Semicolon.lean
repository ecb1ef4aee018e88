import InlineValues.Printer.Print
import Mathlib.Data.List.TakeWhile

/-!
# The last semicolon

The same marks are laid out twice, once with every semicolon written at once and once with each
one deferred until something follows.  At every moment the first line is the second one with its
semicolon settled (`Line.settle_marks`), so that the two texts differ in one semicolon at most: in
the one that is still owed at the end.  That is the case where a semicolon is the last mark that
writes anything (`Line.owesSemicolon_marks`).
-/

namespace InlineValues

/-- Whether a mark writes anything. -/
def Mark.writes : Mark → Bool
  | .text cs => !cs.isEmpty
  | .line | .semicolon => true
  | .cut => false

/-- Whether the last mark that writes anything is a semicolon. -/
def endsInSemicolon (marks : List Mark) : Bool :=
  (marks.filter Mark.writes).getLast? == some .semicolon

namespace Line

/-! ## Two lines, one deferred semicolon apart -/

variable (w : Line)

@[simp] lemma owesSemicolon_settle : w.settle.owesSemicolon = false := by
  unfold settle
  split
  case isTrue => rfl
  case isFalse h => simpa using h

lemma settle_of_owes_not {w : Line} (h : w.owesSemicolon = false) : w.settle = w := by
  simp [settle, h]

@[simp] lemma settle_settle : w.settle.settle = w.settle :=
  settle_of_owes_not w.owesSemicolon_settle

@[simp] lemma settle_push (c : Char) : (w.push c).settle = w.settle.push c := by
  rw [push, push, settle_settle]
  exact settle_of_owes_not w.owesSemicolon_settle

@[simp] lemma settle_append (cs : List Char) : (w.append cs).settle = w.settle.append cs := by
  unfold append
  split
  · rfl
  · rw [settle_settle]
    exact settle_of_owes_not w.owesSemicolon_settle

@[simp] lemma settle_breakLine : w.breakLine.settle = w.settle.breakLine := by
  unfold breakLine
  rw [settle_settle]
  split
  · exact settle_settle w
  · exact settle_settle w
  · rw [settle_push, settle_settle]

@[simp] lemma settle_semicolon : w.semicolon.settle = w.settle.push ';' := by
  rw [push, settle_settle, owesSemicolon_settle]
  rfl

/-- Settling the line on which semicolons are deferred gives the one on which none is. -/
lemma settle_mark (m : Mark) : (w.mark true m).settle = w.settle.mark false m := by
  cases m with
  | text cs => exact w.settle_append cs
  | line => exact w.settle_breakLine
  | semicolon => exact w.settle_semicolon
  | cut => rfl

theorem settle_marks (ms : List Mark) : (w.marks true ms).settle = w.settle.marks false ms := by
  induction ms generalizing w with
  | nil => rfl
  | cons m ms ih => rw [marks_cons, marks_cons, ih, settle_mark]

/-! ## The semicolon that is owed -/

lemma owesSemicolon_mark (m : Mark) :
    (w.mark true m).owesSemicolon = if m.writes then m == .semicolon else w.owesSemicolon := by
  cases m with
  | text cs =>
    change (w.append cs).owesSemicolon = _
    cases cs <;> simp [append, Mark.writes]
  | line =>
    change w.breakLine.owesSemicolon = _
    unfold breakLine
    split <;> simp [Mark.writes, push]
  | semicolon => rfl
  | cut => rfl

/-- A semicolon is owed at the end if it is the last mark that writes anything. -/
theorem owesSemicolon_marks (ms : List Mark) :
    (w.marks true ms).owesSemicolon =
      ((ms.filter Mark.writes).getLast?.map (· == .semicolon)).getD w.owesSemicolon := by
  induction ms generalizing w with
  | nil => rfl
  | cons m ms ih =>
    rw [marks_cons, ih, owesSemicolon_mark, List.filter_cons]
    split
    · rw [List.getLast?_cons, Option.map_some, Option.getD_some, Option.getD_map]
    · rfl

/-! ## Both texts -/

/-- What a line comes to is its text without the blanks at the end. -/
lemma exists_text_eq : ∃ k, w.text = w.finish ++ List.replicate k ' ' := by
  have hblanks : w.reversed.takeWhile (· == ' ') =
      List.replicate (w.reversed.takeWhile (· == ' ')).length ' ' :=
    List.eq_replicate_iff.mpr ⟨rfl, fun c hc => by simpa using List.mem_takeWhile_imp hc⟩
  refine ⟨(w.reversed.takeWhile (· == ' ')).length, ?_⟩
  rw [← List.reverse_replicate, ← hblanks, finish, ← List.reverse_append,
    List.takeWhile_append_dropWhile]
  rfl

lemma getLast?_finish : w.finish.getLast? ≠ some ' ' := by
  intro h
  rw [finish, List.getLast?_reverse] at h
  have hfirst := List.head?_dropWhile_not (· == ' ') w.reversed
  rw [h] at hfirst
  exact absurd hfirst (by decide)

/-- A semicolon that is owed comes behind everything that is written. -/
lemma finish_settle {w : Line} (h : w.owesSemicolon = true) :
    w.settle.finish = w.text ++ [';'] := by
  have hsettle : w.settle = ⟨';' :: w.reversed, false⟩ := if_pos h
  rw [hsettle, finish, List.dropWhile_cons_of_neg (by decide), List.reverse_cons]
  rfl

end Line

/-- To defer the semicolons of some marks changes nothing, unless a semicolon is the last mark that
writes anything.  Then it takes this semicolon from the end, and the blanks in front of it. -/
lemma layOut_deferred (ms : List Mark) :
    if endsInSemicolon ms then
      ∃ k, layOut false ms = layOut true ms ++ List.replicate k ' ' ++ [';']
    else layOut true ms = layOut false ms := by
  have hsettle : (Line.marks true {} ms).settle = Line.marks false {} ms :=
    Line.settle_marks {} ms
  have howes : (Line.marks true {} ms).owesSemicolon = endsInSemicolon ms := by
    rw [Line.owesSemicolon_marks, endsInSemicolon]
    cases (ms.filter Mark.writes).getLast? <;> simp
  unfold layOut
  rw [← hsettle, ← howes]
  split
  case isTrue h =>
    obtain ⟨k, htext⟩ := (Line.marks true {} ms).exists_text_eq
    exact ⟨k, by rw [Line.finish_settle h, htext]⟩
  case isFalse h => rw [Line.settle_of_owes_not (Bool.eq_false_iff.mpr h)]

/-- **Deferred semicolons change nothing but the end of the output.**  Printed with the option to
omit the last semicolon, a node has the same text as without it, or this text without a semicolon
at its end and without the blanks in front of that; the second is the case just when a semicolon is
the last thing that the printer writes.  What is left out is the same. -/
theorem print_omitTrailingSemicolon (source? : Option Source) (removeComments : Bool) (n : Node) :
    let kept := print source? ⟨removeComments, false⟩ n
    let omitted := print source? ⟨removeComments, true⟩ n
    omitted.truncated = kept.truncated ∧
      (omitted.text = kept.text ∨
        ∃ k, kept.text = omitted.text ++ List.replicate k ' ' ++ [';'] ∧
          omitted.text.getLast? ≠ some ' ') ∧
      (omitted.text ≠ kept.text ↔
        endsInSemicolon (marksOf ⟨source?, !removeComments⟩ maxPrintDepth n)) := by
  have hlayout := layOut_deferred (marksOf ⟨source?, !removeComments⟩ maxPrintDepth n)
  refine ⟨rfl, ?_⟩
  simp only [print]
  split at hlayout
  case isTrue h =>
    obtain ⟨k, hk⟩ := hlayout
    refine ⟨.inr ⟨k, hk, Line.getLast?_finish _⟩, iff_of_true (fun heq => ?_) h⟩
    have hlength := congrArg List.length (heq.trans hk)
    simp at hlength
  case isFalse h => exact ⟨.inl hlayout, iff_of_false (fun hne => hne hlayout) h⟩

-- One semicolon with something behind it, and one without.
example :
    let marks : List Mark := [.text ['a'], .semicolon, .line, .text ['b', ' '], .semicolon, .cut]
    layOut false marks = "a; b ;".toList ∧ layOut true marks = "a; b".toList := by decide

end InlineValues

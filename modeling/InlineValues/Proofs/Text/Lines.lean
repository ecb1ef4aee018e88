import InlineValues.Text.LineMap
import InlineValues.Proofs.Token.Cursor

/-!
# The lines of a text

A text is divided into lines, each with the characters that end it (`Source.textLines`), and
`HasLines` says what such a division is.  The starts of the lines are those that a `LineMap` holds
(`HasLines.map_start`), in order.

From any line on, the rest of a text is divided into the rest of its lines
(`HasLines.exists_drop`), so that a place on a line can be treated as if the text began with that
line.
-/

namespace InlineValues

/-! ## Lines -/

/-- A line of a text: where it starts, what stands on it, and the characters that end it. -/
structure TextLine where
  start : Nat
  content : List Char
  ending : List Char
  deriving DecidableEq, Repr

namespace TextLine

/-- The offset at which the content of a line ends. -/
def contentStop (l : TextLine) : Nat := l.start + byteLength l.content

/-- The offset behind the end of a line. -/
def stop (l : TextLine) : Nat := l.contentStop + byteLength l.ending

end TextLine

/-- The lines of `content ++ cs`, where `content` starts at `start` and stands on the first one. -/
def textLinesFrom (start : Nat) (content : List Char) : List Char → List TextLine
  | [] => [⟨start, content, []⟩]
  | '\r' :: '\n' :: cs =>
    ⟨start, content, ['\r', '\n']⟩ :: textLinesFrom (start + byteLength content + 2) [] cs
  | c :: cs =>
    if endsLine c then
      ⟨start, content, [c]⟩ :: textLinesFrom (start + byteLength content + 1) [] cs
    else textLinesFrom start (content ++ [c]) cs

/-- The lines of a text. -/
def Source.textLines (s : Source) : List TextLine := textLinesFrom 0 [] s.chars

/-- Some characters, in front of some others, end a line: a line feed, a carriage return and a line
feed, or a carriage return without one behind it. -/
inductive EndsLineBefore : (ending rest : List Char) → Prop
  | feed (rest : List Char) : EndsLineBefore ['\n'] rest
  | pair (rest : List Char) : EndsLineBefore ['\r', '\n'] rest
  | loneReturn (rest : List Char) (h : rest.head? ≠ some '\n') : EndsLineBefore ['\r'] rest

/-- A text that starts at some offset is divided into lines.  The last line has no end. -/
inductive HasLines : (start : Nat) → (cs : List Char) → List TextLine → Prop
  | last {start : Nat} {content : List Char} (h : OneLine content) :
      HasLines start content [⟨start, content, []⟩]
  | cons {start : Nat} {content ending rest : List Char} {lines : List TextLine}
      (h : OneLine content) (hending : EndsLineBefore ending rest)
      (hrest : HasLines (start + byteLength content + byteLength ending) rest lines) :
      HasLines start (content ++ (ending ++ rest)) (⟨start, content, ending⟩ :: lines)

lemma utf8Size_of_endsLine {c : Char} (h : endsLine c = true) : c.utf8Size = 1 := by
  simp only [endsLine, Bool.or_eq_true, beq_iff_eq] at h
  rcases h with rfl | rfl <;> rfl

/-- A character that ends a line does so unless it is the first one of a pair. -/
lemma EndsLineBefore.single {c : Char} {rest : List Char} (hc : endsLine c = true)
    (hpair : ∀ cs, c = '\r' → rest = '\n' :: cs → False) : EndsLineBefore [c] rest := by
  simp only [endsLine, Bool.or_eq_true, beq_iff_eq] at hc
  rcases hc with rfl | rfl
  · exact .feed rest
  · refine .loneReturn rest fun hhead => ?_
    obtain ⟨cs, hcs⟩ := List.head?_eq_some_iff.mp hhead
    exact hpair cs rfl hcs

lemma hasLines_textLinesFrom (start : Nat) {content : List Char} (h : OneLine content)
    (cs : List Char) : HasLines start (content ++ cs) (textLinesFrom start content cs) := by
  fun_induction textLinesFrom start content cs with
  | case1 start content => simpa using HasLines.last h
  | case2 start content cs ih => exact .cons h (.pair cs) (ih oneLine_nil)
  | case3 start content c cs hpair hc ih =>
    refine .cons h (.single hc hpair) ?_
    simpa [utf8Size_of_endsLine hc] using ih oneLine_nil
  | case4 start content c cs _ hc ih =>
    rw [List.append_cons]
    exact ih (by simpa [h] using hc)

lemma Source.hasLines_textLines (s : Source) : HasLines 0 s.chars s.textLines :=
  hasLines_textLinesFrom 0 oneLine_nil s.chars

/-! ## The starts of lines -/

lemma lineStartsFrom_append (pos : Nat) {content : List Char} (h : OneLine content)
    (rest : List Char) :
    lineStartsFrom pos (content ++ rest) = lineStartsFrom (pos + byteLength content) rest := by
  induction content generalizing pos with
  | nil => rfl
  | cons c content ih =>
    obtain ⟨hc, hcontent⟩ := oneLine_cons.mp h
    have hpair : ∀ cs, c = '\r' → content ++ rest = '\n' :: cs → False := by
      rintro _ rfl -
      exact absurd hc (by decide)
    rw [List.cons_append, lineStartsFrom.eq_3 _ _ _ hpair, if_neg (by simp [hc]), ih _ hcontent,
      byteLength_cons, Nat.add_assoc]

lemma EndsLineBefore.lineStartsFrom {ending rest : List Char} (h : EndsLineBefore ending rest)
    (pos : Nat) : lineStartsFrom pos (ending ++ rest) =
      (pos + byteLength ending) :: lineStartsFrom (pos + byteLength ending) rest := by
  cases h with
  | feed => rfl
  | pair => rfl
  | loneReturn _ hrest =>
    have hpair : ∀ cs, '\r' = '\r' → rest = '\n' :: cs → False := by
      rintro cs - rfl
      exact hrest rfl
    exact lineStartsFrom.eq_3 pos '\r' rest hpair

/-- Taking the end off a line leaves the content. -/
lemma withoutLineEnd_append {content ending : List Char} (h : OneLine content)
    (hending : ∀ c ∈ ending, endsLine c = true) :
    withoutLineEnd (content ++ ending) = content := by
  have hcontent : content.reverse.dropWhile endsLine = content.reverse := by
    cases hlast : content.reverse with
    | nil => rfl
    | cons c rest =>
      have hc : c ∈ content := List.mem_reverse.mp (hlast ▸ List.mem_cons_self)
      exact List.dropWhile_cons_of_neg (by simp [h c hc])
  rw [withoutLineEnd, List.reverse_append,
    List.dropWhile_append_of_pos fun c hc => hending c (List.mem_reverse.mp hc), hcontent,
    List.reverse_reverse]

lemma EndsLineBefore.endsLine_of_mem {ending rest : List Char} (h : EndsLineBefore ending rest) :
    ∀ c ∈ ending, endsLine c = true := by
  cases h <;> simp [endsLine]

lemma EndsLineBefore.byteLength_pos {ending rest : List Char} (h : EndsLineBefore ending rest) :
    0 < byteLength ending := by
  cases h <;> decide

lemma EndsLineBefore.eq_pair {ending rest : List Char} (h : EndsLineBefore ending rest)
    (hlong : 1 < byteLength ending) : ending = ['\r', '\n'] := by
  cases h with
  | feed => exact absurd hlong (by decide)
  | pair => rfl
  | loneReturn => exact absurd hlong (by decide)

namespace HasLines

variable {start : Nat} {cs : List Char} {lines : List TextLine}

/-- The starts of the lines are those that are found by looking for the ends of lines. -/
theorem map_start (h : HasLines start cs lines) :
    lines.map (·.start) = start :: lineStartsFrom start cs := by
  induction h with
  | @last start content h =>
    have hnone := lineStartsFrom_append start h []
    rw [List.append_nil] at hnone
    simp [hnone, lineStartsFrom]
  | cons h hending _ ih =>
    rw [List.map_cons, ih, lineStartsFrom_append _ h, hending.lineStartsFrom]

lemma exists_cons (h : HasLines start cs lines) :
    ∃ l later, lines = l :: later ∧ l.start = start := by
  cases h with
  | last => exact ⟨_, _, rfl, rfl⟩
  | cons => exact ⟨_, _, rfl, rfl⟩

lemma start_le (h : HasLines start cs lines) {l : TextLine} (hl : l ∈ lines) :
    start ≤ l.start := by
  induction h with
  | last =>
    obtain rfl := List.mem_singleton.mp hl
    exact Nat.le_refl _
  | cons _ _ _ ih =>
    rcases List.mem_cons.mp hl with rfl | hl
    · exact Nat.le_refl _
    · have := ih hl
      omega

lemma eq_of_getElem?_singleton {l l' : TextLine} {k : Nat} (h : [l][k]? = some l') :
    k = 0 ∧ l = l' := by
  cases k with
  | zero => exact ⟨rfl, Option.some.inj h⟩
  | succ k => simp at h

/-- From any line on, the rest of the text is divided into the rest of the lines. -/
theorem exists_drop (h : HasLines start cs lines) {k : Nat} {l : TextLine}
    (hl : lines[k]? = some l) : ∃ front tail, cs = front ++ tail ∧
      start + byteLength front = l.start ∧ HasLines l.start tail (l :: lines.drop (k + 1)) := by
  induction h generalizing k with
  | @last start content h =>
    obtain ⟨rfl, rfl⟩ := eq_of_getElem?_singleton hl
    exact ⟨[], content, rfl, rfl, .last h⟩
  | @cons start content ending rest lines h hending hrest ih =>
    cases k with
    | zero =>
      obtain rfl := Option.some.inj hl
      exact ⟨[], _, rfl, rfl, .cons h hending hrest⟩
    | succ k =>
      obtain ⟨front, tail, rfl, hstart, htail⟩ := ih hl
      refine ⟨content ++ (ending ++ front), tail, by simp, ?_, htail⟩
      rw [← hstart, byteLength_append, byteLength_append]
      omega

/-- In front of an offset on a line lie the starts of the lines up to it. -/
lemma length_takeWhile (h : HasLines start cs lines) {k offset : Nat} {l : TextLine}
    (hl : lines[k]? = some l) (hstart : l.start ≤ offset) (hstop : offset ≤ l.contentStop) :
    ((lines.map (·.start)).takeWhile (· ≤ offset)).length = k + 1 := by
  induction h generalizing k with
  | @last start content =>
    obtain ⟨rfl, rfl⟩ := eq_of_getElem?_singleton hl
    rw [List.map_singleton, List.takeWhile_cons_of_pos (by simpa using hstart)]
    rfl
  | @cons start content ending rest lines _ hending hrest ih =>
    cases k with
    | zero =>
      obtain rfl := Option.some.inj hl
      have hbehind := hending.byteLength_pos
      have hnext : ¬start + byteLength content + byteLength ending ≤ offset := by
        simp only [TextLine.contentStop] at hstop
        omega
      rw [List.map_cons, hrest.map_start, List.takeWhile_cons_of_pos (by simpa using hstart),
        List.takeWhile_cons_of_neg (by simpa using hnext)]
      rfl
    | succ k =>
      have hfirst : start ≤ offset := by
        have := hrest.start_le (List.mem_of_getElem? hl)
        omega
      rw [List.map_cons, List.takeWhile_cons_of_pos (by simpa using hfirst), List.length_cons,
        ih hl]

lemma pairwise_start (h : HasLines start cs lines) :
    (lines.map (·.start)).Pairwise (· < ·) := by
  induction h with
  | last => simp
  | @cons start content ending rest lines _ hending hrest ih =>
    refine List.pairwise_cons.mpr ⟨fun p hp => ?_, ih⟩
    obtain ⟨l, hl, rfl⟩ := List.mem_map.mp hp
    have hbehind := hending.byteLength_pos
    have hnext := hrest.start_le hl
    change start < l.start
    omega

end HasLines

/-! ## The place of a line -/

namespace Source

variable {s : Source} {k : Nat} {l : TextLine}

/-- A line stands between two parts of the text.  Either its end is not there and neither is
another line, or its end ends it and the next line starts behind that. -/
lemma exists_textLine (hl : s.textLines[k]? = some l) :
    ∃ front rest, s.chars = front ++ (l.content ++ (l.ending ++ rest)) ∧
      byteLength front = l.start ∧ OneLine l.content ∧
      (l.ending = [] ∧ rest = [] ∧ s.textLines[k + 1]? = none ∨
        EndsLineBefore l.ending rest ∧
          ∃ next, s.textLines[k + 1]? = some next ∧ next.start = l.stop) := by
  obtain ⟨front, tail, hchars, hstart, htail⟩ := s.hasLines_textLines.exists_drop hl
  rw [Nat.zero_add] at hstart
  obtain ⟨start, content, ending⟩ := l
  have hnext : s.textLines[k + 1]? = (s.textLines.drop (k + 1)).head? := List.head?_drop.symm
  generalize s.textLines.drop (k + 1) = later at htail hnext
  cases htail with
  | last h => exact ⟨front, [], by simpa using hchars, hstart, h, .inl ⟨rfl, rfl, hnext⟩⟩
  | @cons _ _ _ rest _ h hending hrest =>
    obtain ⟨next, more, rfl, hnextStart⟩ := hrest.exists_cons
    exact ⟨front, rest, hchars, hstart, h, .inr ⟨hending, next, hnext, hnextStart⟩⟩

lemma isCut_lineStart (hl : s.textLines[k]? = some l) : s.IsCut l.start := by
  obtain ⟨front, rest, hchars, hstart, -⟩ := exists_textLine hl
  exact isCut_iff.mpr ⟨front, _, hchars, hstart⟩

/-- A line stops where the next one starts, or at the end of the text. -/
lemma stop_textLine (hl : s.textLines[k]? = some l) :
    (s.textLines[k + 1]?.map (·.start)).getD s.size = l.stop := by
  obtain ⟨front, rest, hchars, hstart, -, ⟨hending, rfl, hnone⟩ | ⟨-, next, hnext, hstop⟩⟩ :=
    exists_textLine hl
  · rw [hnone, Option.map_none, Option.getD_none, s.size_eq, hchars, TextLine.stop,
      TextLine.contentStop, ← hstart]
    simp only [byteLength_append, byteLength_nil]
    omega
  · rw [hnext, Option.map_some, Option.getD_some, hstop]

/-- The text from the start of a line to where it stops, with its end taken off, is the content. -/
lemma withoutLineEnd_textLine (hl : s.textLines[k]? = some l) :
    withoutLineEnd (s.slice l.start l.stop) = l.content := by
  obtain ⟨front, rest, hchars, hstart, hone, hend⟩ := exists_textLine hl
  have hslice : s.slice l.start l.stop = l.content ++ l.ending := by
    rw [← List.append_assoc l.content] at hchars
    rw [TextLine.stop, TextLine.contentStop, Nat.add_assoc, ← byteLength_append, ← hstart, slice,
      slice?_of_eq_append hchars]
    rfl
  rw [hslice]
  refine withoutLineEnd_append hone ?_
  rcases hend with ⟨hending, -, -⟩ | ⟨hending, -⟩
  · simp [hending]
  · exact hending.endsLine_of_mem

end Source

end InlineValues

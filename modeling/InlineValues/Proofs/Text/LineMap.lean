import InlineValues.Proofs.Text.Adjunction
import InlineValues.Proofs.Text.Lines
import Mathlib.Data.List.TakeWhile

/-!
# Lines and their positions

The line that a `LineMap` finds for an offset is the one that holds it (`LineMap.exists_lineOf`).
On that line the conversions between bytes and UTF-16 code units are adjoint, and that the end of
the line is taken off holds a place at the end of the content (`byteOfUtf16_front`).  This is the
way from an offset to its position and back (`LineMap.exists_offset?_position`), and the other way
round (`LineMap.position_lineStart_add`).  `LineMap.roundTrips` puts the two together.
-/

namespace InlineValues

/-- Behind the longest run of members that pass a test stands one that does not. -/
lemma getElem?_length_takeWhile {xs : List Nat} {test : Nat → Bool} {x : Nat}
    (h : xs[(xs.takeWhile test).length]? = some x) : test x = false := by
  induction xs with
  | nil => simp at h
  | cons a xs ih =>
    by_cases ha : test a = true
    · rw [List.takeWhile_cons_of_pos ha] at h
      exact ih h
    · rw [List.takeWhile_cons_of_neg ha] at h
      obtain rfl := Option.some.inj h
      exact Bool.eq_false_iff.mpr ha

namespace LineMap

lemma starts_ofSource (s : Source) : (ofSource s).starts = s.textLines.map (·.start) :=
  s.hasLines_textLines.map_start.symm

lemma lineCount_ofSource (s : Source) : (ofSource s).lineCount = s.textLines.length := by
  rw [lineCount, starts_ofSource, List.length_map]

lemma lineStart?_ofSource (s : Source) (k : Nat) :
    (ofSource s).lineStart? k = s.textLines[k]?.map (·.start) := by
  rw [lineStart?, starts_ofSource, List.getElem?_map]

/-! ## The line of an offset -/

/-- A line starts at or before every offset. -/
lemma length_startsBefore_pos (s : Source) (offset : Nat) :
    0 < ((ofSource s).starts.takeWhile (· ≤ offset)).length := by
  rw [ofSource, List.takeWhile_cons_of_pos (by simp)]
  exact Nat.succ_pos _

/-- The line of an offset starts at or before it, and the next one starts behind it. -/
theorem exists_lineOf (s : Source) (offset : Nat) :
    ∃ l, s.textLines[(ofSource s).lineOf offset]? = some l ∧ l.start ≤ offset ∧
      ∀ next, s.textLines[(ofSource s).lineOf offset + 1]? = some next → offset < next.start := by
  have hpos := length_startsBefore_pos s offset
  have hcount : (ofSource s).lineOf offset + 1 =
      ((ofSource s).starts.takeWhile (· ≤ offset)).length := Nat.sub_add_cancel hpos
  obtain ⟨start, hline, hle⟩ : ∃ start,
      (ofSource s).starts[(ofSource s).lineOf offset]? = some start ∧ start ≤ offset := by
    have hlt := Nat.sub_lt hpos Nat.one_pos
    have hprefix := List.takeWhile_prefix (l := (ofSource s).starts) (· ≤ offset)
    exact ⟨_, List.prefix_iff_getElem?.mp hprefix _ hlt,
      by simpa using List.mem_takeWhile_imp (List.getElem_mem hlt)⟩
  rw [starts_ofSource, List.getElem?_map, Option.map_eq_some_iff] at hline
  obtain ⟨l, hl, rfl⟩ := hline
  refine ⟨l, hl, hle, fun next hnext => ?_⟩
  have hafter : (ofSource s).starts[(ofSource s).lineOf offset + 1]? = some next.start := by
    rw [starts_ofSource, List.getElem?_map, hnext, Option.map_some]
  rw [hcount] at hafter
  simpa using getElem?_length_takeWhile hafter

/-- An offset on the content of a line, or at its end, lies on this line. -/
lemma lineOf_eq {s : Source} {k offset : Nat} {l : TextLine} (hl : s.textLines[k]? = some l)
    (hstart : l.start ≤ offset) (hstop : offset ≤ l.contentStop) :
    (ofSource s).lineOf offset = k := by
  rw [lineOf, starts_ofSource, s.hasLines_textLines.length_takeWhile hl hstart hstop,
    Nat.add_sub_cancel]

/-! ## From positions to offsets -/

/-- A column is held at the end of the content of its line. -/
lemma offset?_eq {s : Source} {k : Nat} {l : TextLine} (hl : s.textLines[k]? = some l)
    (column : Nat) :
    (ofSource s).offset? s ⟨k, column⟩ = some (l.start + byteOfUtf16 l.content column) := by
  simp only [offset?, lineStart?_ofSource, hl, Option.map_some, Source.stop_textLine hl,
    Source.withoutLineEnd_textLine hl]

lemma offset?_eq_none_iff (s : Source) (p : Position) :
    (ofSource s).offset? s p = none ↔ (ofSource s).lineCount ≤ p.line := by
  rw [offset?, Option.map_eq_none_iff, lineStart?, lineCount, List.getElem?_eq_none_iff]

/-- Every position is an offset between two characters. -/
lemma isCut_of_offset? {s : Source} {p : Position} {offset : Nat}
    (h : (ofSource s).offset? s p = some offset) : s.IsCut offset := by
  obtain ⟨start, hstart, -⟩ := Option.map_eq_some_iff.mp h
  rw [lineStart?_ofSource, Option.map_eq_some_iff] at hstart
  obtain ⟨l, hl, -⟩ := hstart
  obtain ⟨front, behind, hchars, hfront, -⟩ := Source.exists_textLine hl
  obtain ⟨upto, after, hcontent, hupto⟩ := exists_append_byteOfUtf16 l.content p.column
  have hoffset := Option.some.inj ((offset?_eq hl p.column).symm.trans h)
  refine Source.isCut_iff.mpr ⟨front ++ upto, after ++ (l.ending ++ behind), ?_, ?_⟩
  · rw [hchars, hcontent]
    simp
  · rw [byteLength_append, hfront, hupto, hoffset]

/-! ## From offsets to positions -/

lemma position_eq {s : Source} {offset : Nat} {l : TextLine}
    (hl : s.textLines[(ofSource s).lineOf (min offset s.size)]? = some l) :
    (ofSource s).position s offset = ⟨(ofSource s).lineOf (min offset s.size),
      utf16OfByte (s.suffix l.start) (min offset s.size - l.start)⟩ := by
  simp only [position, lineStart?_ofSource, hl, Option.map_some, Option.getD_some]

/-- The position of an offset leads to the next offset between two characters, held at the end of
the content of the line. -/
theorem exists_offset?_position (s : Source) (offset : Nat) :
    ∃ l, s.textLines[((ofSource s).position s offset).line]? = some l ∧
      l.start ≤ min offset s.size ∧
      (∀ next, s.textLines[((ofSource s).position s offset).line + 1]? = some next →
        min offset s.size < next.start) ∧
      (ofSource s).offset? s ((ofSource s).position s offset) =
        some (min (byteOfUtf16 s.chars (utf16OfByte s.chars (min offset s.size)))
          l.contentStop) := by
  obtain ⟨l, hl, hle, hnext⟩ := exists_lineOf s (min offset s.size)
  rw [position_eq hl]
  refine ⟨l, hl, hle, hnext, ?_⟩
  obtain ⟨front, behind, hchars, hstart, -⟩ := Source.exists_textLine hl
  have hsuffix : s.suffix l.start = l.content ++ (l.ending ++ behind) :=
    hstart ▸ Source.suffix_of_eq_append hchars
  generalize min offset s.size = p at *
  have hp : p = byteLength front + (p - l.start) := by omega
  have hback : byteOfUtf16 s.chars (utf16OfByte s.chars p) =
      l.start + byteOfUtf16 (l.content ++ (l.ending ++ behind))
        (utf16OfByte (l.content ++ (l.ending ++ behind)) (p - l.start)) := by
    rw [hchars, hp, utf16OfByte_append_add, byteOfUtf16_append_add, hstart, ← hstart,
      Nat.add_sub_cancel_left]
  rw [offset?_eq hl, hsuffix, hback, byteOfUtf16_front l.content (l.ending ++ behind),
    TextLine.contentStop]
  congr 1
  omega

/-- The offset of a column leads to the last column before it that is not inside a surrogate pair,
held at the end of the content of the line. -/
theorem position_lineStart_add {s : Source} {k : Nat} {l : TextLine}
    (hl : s.textLines[k]? = some l) (column : Nat) :
    (ofSource s).position s (l.start + byteOfUtf16 l.content column) =
      ⟨k, utf16OfByte l.content (byteOfUtf16 l.content column)⟩ := by
  have hsize : l.start + byteOfUtf16 l.content column ≤ s.size :=
    (isCut_of_offset? (offset?_eq hl column)).le_size
  obtain ⟨front, behind, hchars, hstart, -⟩ := Source.exists_textLine hl
  obtain ⟨upto, after, hcontent, hupto⟩ := exists_append_byteOfUtf16 l.content column
  have hline : (ofSource s).lineOf (l.start + byteOfUtf16 l.content column) = k := by
    refine lineOf_eq hl (Nat.le_add_right _ _) (Nat.add_le_add_left ?_ _)
    rw [← hupto, hcontent, byteLength_append]
    exact Nat.le_add_right _ _
  have hsuffix : s.suffix l.start = l.content ++ (l.ending ++ behind) :=
    hstart ▸ Source.suffix_of_eq_append hchars
  have hcolumn : utf16OfByte (l.content ++ (l.ending ++ behind)) (byteLength upto) =
      utf16OfByte l.content (byteLength upto) := by
    rw [hcontent, List.append_assoc, utf16OfByte_append, utf16OfByte_append]
  rw [← Nat.min_eq_left hsize] at hline
  rw [position_eq (hline.symm ▸ hl), hline, hsuffix, Nat.min_eq_left hsize,
    Nat.add_sub_cancel_left, ← hupto, hcolumn]

/-- An offset on a line where no line feed stands lies on the content of the line, or at its end:
only a line feed behind a carriage return stands further behind. -/
lemma le_contentStop {s : Source} {k p : Nat} {l : TextLine} (hl : s.textLines[k]? = some l)
    (hsize : p ≤ s.size) (hnext : ∀ next, s.textLines[k + 1]? = some next → p < next.start)
    (hfeed : (s.cursor p).peek? ≠ some '\n') : p ≤ l.contentStop := by
  obtain ⟨front, rest, hchars, hstart, -, ⟨hending, -, hnone⟩ | ⟨hending, next, hl', hstop⟩⟩ :=
    Source.exists_textLine hl
  · have hstop := Source.stop_textLine hl
    rw [hnone, Option.map_none, Option.getD_none, TextLine.stop, hending, byteLength_nil,
      Nat.add_zero] at hstop
    exact hstop ▸ hsize
  · by_contra hbehind
    have hlt := hnext next hl'
    rw [hstop, TextLine.stop] at hlt
    have hpair := hending.eq_pair (by omega)
    have hp : byteLength (front ++ (l.content ++ ['\r'])) = p := by
      have hreturn : byteLength ['\r'] = 1 := rfl
      have htwo : byteLength l.ending = 2 := by rw [hpair]; rfl
      rw [TextLine.contentStop] at hbehind hlt
      rw [byteLength_append, byteLength_append]
      omega
    have hsuffix : s.suffix p = '\n' :: rest := by
      rw [← hp]
      exact Source.suffix_of_eq_append (by simpa [hpair] using hchars)
    exact hfeed (by rw [Source.cursor, Cursor.peek?, hsuffix, List.head?_cons])

/-- The position of a cut leads back to it, unless a line feed stands there, which might end a line
together with a carriage return in front of it. -/
lemma offset?_position {s : Source} {p : Nat} (h : s.IsCut p)
    (hfeed : (s.cursor p).peek? ≠ some '\n') :
    (ofSource s).offset? s ((ofSource s).position s p) = some p := by
  obtain ⟨l, hl, -, hnext, hoffset⟩ := exists_offset?_position s p
  rw [Nat.min_eq_left h.le_size] at hnext hoffset
  rw [hoffset, h.byteOfUtf16_utf16OfByte,
    Nat.min_eq_left (le_contentStop hl h.le_size hnext hfeed)]

/-! ## There and back -/

/-- How the offsets of a text and the positions on its lines lead to each other. -/
structure RoundTrips (s : Source) : Prop where
  /-- The text is divided into its lines, and these are counted. -/
  lines : HasLines 0 s.chars s.textLines
  count : (ofSource s).lineCount = s.textLines.length
  sorted : (ofSource s).starts.Pairwise (· < ·)
  /-- The line of an offset is there, and starts at a cut that is not behind the offset. -/
  in_range : ∀ offset,
    0 < ((ofSource s).starts.takeWhile (· ≤ min offset s.size)).length ∧
      ∃ start, (ofSource s).lineStart? ((ofSource s).lineOf (min offset s.size)) = some start ∧
        start ≤ min offset s.size ∧ s.IsCut start
  /-- From an offset the way leads through the line that holds it to the next cut, held at the end
  of the content of that line. -/
  offset_position : ∀ offset, ∃ l next,
    s.textLines[((ofSource s).position s offset).line]? = some l ∧
      l.start ≤ min offset s.size ∧
      (∀ after, s.textLines[((ofSource s).position s offset).line + 1]? = some after →
        min offset s.size < after.start) ∧
      IsLeast {q | s.IsCut q ∧ min offset s.size ≤ q} next ∧
      (ofSource s).offset? s ((ofSource s).position s offset) = some (min next l.contentStop)
  /-- From a line and a column the way leads back to the line, and to the last column before it
  that is not inside a surrogate pair, held at the end of the content of the line. -/
  position_offset : ∀ k < (ofSource s).lineCount, ∀ column, ∃ l offset last,
    s.textLines[k]? = some l ∧ (ofSource s).offset? s ⟨k, column⟩ = some offset ∧
      (ofSource s).position s offset = ⟨k, last⟩ ∧
      IsGreatest {n | n ≤ min column (utf16Length l.content) ∧
        ∃ front, front <+: l.content ∧ utf16Length front = n} last
  none_iff : ∀ p, (ofSource s).offset? s p = none ↔ (ofSource s).lineCount ≤ p.line

/-- **Offsets and positions lead back to each other.**  For every text, an offset leads through its
line and column to the next offset between two characters, and a line and a column lead through
their offset to the last column before them that is not inside a surrogate pair.  Both are held at
the end of what stands on the line, since the characters that end a line belong to no column.  A
line that does not exist has no offset, and nothing else is refused. -/
theorem roundTrips (s : Source) : RoundTrips s where
  lines := s.hasLines_textLines
  count := lineCount_ofSource s
  sorted := starts_ofSource s ▸ s.hasLines_textLines.pairwise_start
  in_range offset := by
    obtain ⟨l, hl, hle, -⟩ := exists_lineOf s (min offset s.size)
    refine ⟨length_startsBefore_pos s _, l.start, ?_, hle, Source.isCut_lineStart hl⟩
    rw [lineStart?_ofSource, hl, Option.map_some]
  offset_position offset := by
    obtain ⟨l, hl, hle, hnext, hback⟩ := exists_offset?_position s offset
    exact ⟨l, _, hl, hle, hnext, s.isLeast_nextCut (Nat.min_le_right _ _), hback⟩
  position_offset k hk column := by
    rw [lineCount_ofSource] at hk
    have hl := List.getElem?_eq_getElem hk
    exact ⟨_, _, _, hl, offset?_eq hl column, position_lineStart_add hl column,
      isGreatest_lastUnits _ column⟩
  none_iff := offset?_eq_none_iff s

-- An offset inside a pair of ends is held in front of it, and one inside a character goes on.
example :
    let s := Source.ofString "a\r\n𝒳\rb"
    (List.range 10).map (fun p => (ofSource s).position s p) =
        [⟨0, 0⟩, ⟨0, 1⟩, ⟨0, 2⟩, ⟨1, 0⟩, ⟨1, 2⟩, ⟨1, 2⟩, ⟨1, 2⟩, ⟨1, 2⟩, ⟨2, 0⟩, ⟨2, 1⟩] ∧
      (List.range 10).map (fun p => (ofSource s).offset? s ((ofSource s).position s p)) =
        [0, 1, 1, 3, 7, 7, 7, 7, 8, 9].map some := by decide +kernel

end LineMap

end InlineValues

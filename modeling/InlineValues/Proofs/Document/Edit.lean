import InlineValues.Session.Server
import InlineValues.Proofs.Text.LineMap

/-!
# Edits on characters

A place stands between two characters of its text (`isCut_offsetIn`), and how many characters stand
in front of it can be said without bytes (`Location.charsBefore`): by the code units of the
characters, and by the lines of the text.  So an edit keeps all characters in front of the place
where it starts and all behind the place where it ends, and what it makes of a text can be said
without bytes too (`Edit.applied`).  A document that is edited is the document of the edited text,
with a tree and lines of its own (`applyEdit_ofSource`).
-/

namespace InlineValues

/-! ## Places between characters -/

namespace Location

/-- The byte offset of a place in a text. -/
def offsetIn (s : Source) : Location → Nat
  | utf16 offset => byteOfUtf16 s.chars offset
  | lineColumn line column =>
    ((LineMap.ofSource s).offset? s ⟨line - 1, column - 1⟩).getD s.size

theorem isCut_offsetIn (s : Source) (place : Location) : s.IsCut (place.offsetIn s) := by
  cases place with
  | utf16 offset => exact s.isCut_byteOfUtf16 offset
  | lineColumn line column =>
    rw [offsetIn]
    cases hoffset : (LineMap.ofSource s).offset? s ⟨line - 1, column - 1⟩ with
    | none => exact s.isCut_size
    | some offset => exact LineMap.isCut_of_offset? hoffset

/-- The number of characters at the front of a text that have room in some UTF-16 code units. -/
def charsWithin : List Char → (units : Nat) → Nat
  | [], _ => 0
  | c :: cs, units => if units < utf16Size c then 0 else charsWithin cs (units - utf16Size c) + 1

/-- The number of characters of a text in front of a place.  A column is counted on its line alone
and held at the end of what stands on it, and a line that does not exist comes behind the text. -/
def charsBefore (text : List Char) : Location → Nat
  | utf16 offset => charsWithin text offset
  | lineColumn line column =>
    match (Source.ofChars text).textLines[line - 1]? with
    | some l => (takeBytes text l.start).length + charsWithin l.content (column - 1)
    | none => text.length

lemma length_takeBytes_byteOfUtf16 (cs : List Char) (units : Nat) :
    (takeBytes cs (byteOfUtf16 cs units)).length = charsWithin cs units := by
  induction cs generalizing units with
  | nil => rfl
  | cons c cs ih =>
    rw [byteOfUtf16_cons, charsWithin]
    split
    · rw [takeBytes_zero, List.length_nil]
    · have hpos := c.utf8Size_pos
      rw [takeBytes_cons c cs (by omega), Nat.add_sub_cancel_left, List.length_cons, ih]

/-- The bytes in front of a place are those of the characters in front of it. -/
lemma length_takeBytes_offsetIn (text : List Char) (place : Location) :
    (takeBytes text (place.offsetIn (.ofChars text))).length = place.charsBefore text := by
  cases place with
  | utf16 offset => exact length_takeBytes_byteOfUtf16 text offset
  | lineColumn line column =>
    rw [offsetIn, charsBefore]
    cases hl : (Source.ofChars text).textLines[line - 1]? with
    | none =>
      have hlines : (LineMap.ofSource (.ofChars text)).lineCount ≤ line - 1 := by
        rw [LineMap.lineCount_ofSource]
        exact List.getElem?_eq_none_iff.mp hl
      have hwhole := takeBytes_append text []
      rw [List.append_nil] at hwhole
      rw [(LineMap.offset?_eq_none_iff _ _).mpr hlines, Option.getD_none, Source.size_ofChars,
        hwhole]
    | some l =>
      obtain ⟨front, rest, hchars, hstart, -⟩ := Source.exists_textLine hl
      obtain ⟨upto, after, hcontent, hupto⟩ := exists_append_byteOfUtf16 l.content (column - 1)
      have htext : text = front ++ (upto ++ (after ++ (l.ending ++ rest))) := by
        rw [hcontent, List.append_assoc] at hchars
        exact hchars
      have hlength : upto.length = charsWithin l.content (column - 1) := by
        rw [← length_takeBytes_byteOfUtf16, ← hupto, hcontent, takeBytes_append]
      have hfront : takeBytes text l.start = front := by rw [htext, ← hstart, takeBytes_append]
      have hboth : takeBytes text (l.start + byteOfUtf16 l.content (column - 1)) =
          front ++ upto := by
        rw [htext, ← hstart, ← hupto, ← byteLength_append, ← List.append_assoc, takeBytes_append]
      rw [LineMap.offset?_eq hl, Option.getD_some, hboth, List.length_append, hlength]
      dsimp only
      rw [hfront]

end Location

namespace Document

lemma byteOffset_eq (d : Document) (place : Location) :
    d.byteOffset place = place.offsetIn d.source := by
  cases place with
  | utf16 offset => rfl
  | lineColumn line column => rw [byteOffset, d.lines_eq, Location.offsetIn, source]

end Document

/-! ## Parts of a text -/

namespace Source.IsCut

variable {s : Source} {p q : Nat}

lemma suffix_eq_drop (h : s.IsCut p) :
    s.suffix p = s.chars.drop (takeBytes s.chars p).length := by
  obtain ⟨front, behind, hchars, rfl⟩ := isCut_iff.mp h
  rw [suffix_of_eq_append hchars, hchars, takeBytes_append, List.drop_left]

lemma slice_zero_eq_take (h : s.IsCut p) :
    s.slice 0 p = s.chars.take (takeBytes s.chars p).length := by
  obtain ⟨front, behind, hchars, rfl⟩ := isCut_iff.mp h
  rw [slice, slice?_zero_of_eq_append hchars, hchars, takeBytes_append, List.take_left]
  rfl

lemma length_takeBytes_le (hp : s.IsCut p) (hq : s.IsCut q) (h : p ≤ q) :
    (takeBytes s.chars p).length ≤ (takeBytes s.chars q).length := by
  obtain ⟨front, between, behind, hchars, rfl, rfl, -⟩ := hp.exists_append hq h
  rw [hchars, takeBytes_append, List.append_assoc, takeBytes_append, List.length_append]
  exact Nat.le_add_right _ _

lemma cut_max (hp : s.IsCut p) (hq : s.IsCut q) : s.IsCut (max p q) := by
  rcases Nat.le_total p q with h | h
  · rwa [Nat.max_eq_right h]
  · rwa [Nat.max_eq_left h]

lemma length_takeBytes_max (hp : s.IsCut p) (hq : s.IsCut q) :
    (takeBytes s.chars (max p q)).length =
      max (takeBytes s.chars p).length (takeBytes s.chars q).length := by
  rcases Nat.le_total p q with h | h
  · rw [Nat.max_eq_right h, Nat.max_eq_right (hp.length_takeBytes_le hq h)]
  · rw [Nat.max_eq_left h, Nat.max_eq_left (hq.length_takeBytes_le hp h)]

end Source.IsCut

/-! ## Edits -/

/-- What an edit makes of a text: a new text, or what stands in front of the first place, the text
to insert, and what stands behind the second place, or behind the first one if that comes later. -/
def Edit.applied (text : List Char) : Edit → List Char
  | replace new => new.toList
  | splice start stop insert =>
    text.take (start.charsBefore text) ++ insert.toList ++
      text.drop (max (start.charsBefore text) (stop.charsBefore text))

/-- An edited document is the document of the edited text. -/
theorem applyEdit_ofSource (file : String) (text : List Char) (edit : Edit) :
    Server.applyEdit (.ofSource file (.ofChars text)) edit =
      .ofSource file (.ofChars (edit.applied text)) := by
  cases edit with
  | replace new => rfl
  | splice start stop insert =>
    have hstart := start.isCut_offsetIn (.ofChars text)
    have hstop := stop.isCut_offsetIn (.ofChars text)
    have hlast := hstart.cut_max hstop
    have hmax := hstart.length_takeBytes_max hstop
    rw [Source.chars_ofChars] at hmax
    simp only [Server.applyEdit, Document.splice, Document.byteOffset_eq,
      Document.source_ofSource, hstart.slice_zero_eq_take, hlast.suffix_eq_drop,
      Source.chars_ofChars, hmax, Location.length_takeBytes_offsetIn]
    rfl

end InlineValues

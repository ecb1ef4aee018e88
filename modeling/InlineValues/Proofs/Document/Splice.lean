import InlineValues.Proofs.Document.Edit

/-!
# Splicing is safe and exact

Wherever an editor says that an edit starts and ends, both places are cuts of the text that is
edited (`Location.isCut_offsetIn`).  So the text is divided there into three parts
(`Document.exists_parts`), and the edit puts another text in the place of the middle one
(`Document.splice_eq`).  On the cuts no conversion of offsets rounds, and so an edit is undone by
the edit that puts the middle part back (`Document.splice_exact`).
-/

namespace InlineValues.Document

/-- The byte offset of a place never divides a character. -/
lemma isCut_byteOffset (d : Document) (place : Location) : d.source.IsCut (d.byteOffset place) :=
  d.byteOffset_eq place ▸ place.isCut_offsetIn d.source

/-- Two places divide the text in three, the second one moved to the first one if it lies in front
of it. -/
theorem exists_parts (d : Document) (start stop : Location) :
    ∃ front between behind, d.source.chars = front ++ (between ++ behind) ∧
      byteLength front = d.byteOffset start ∧
      byteLength (front ++ between) = max (d.byteOffset start) (d.byteOffset stop) := by
  have hstart := d.isCut_byteOffset start
  have hlast := hstart.cut_max (d.isCut_byteOffset stop)
  obtain ⟨front, between, behind, hchars, hfront, hbetween, -⟩ :=
    hstart.exists_append hlast (Nat.le_max_left _ _)
  exact ⟨front, between, behind, by rw [hchars, List.append_assoc], hfront, hbetween⟩

section

variable {d : Document} {front between behind : List Char} {start stop : Location}
  (hchars : d.source.chars = front ++ (between ++ behind))

include hchars

/-- An edit puts a text in the place of the part between two places. -/
theorem splice_eq (hstart : byteLength front = d.byteOffset start)
    (hstop : byteLength (front ++ between) = max (d.byteOffset start) (d.byteOffset stop))
    (insert : List Char) :
    d.splice start stop insert = .ofSource d.fileName (.ofChars (front ++ insert ++ behind)) := by
  have hfront : d.source.slice 0 (d.byteOffset start) = front := by
    rw [← hstart, Source.slice, Source.slice?_zero_of_eq_append hchars]
    rfl
  have hbehind : d.source.suffix (max (d.byteOffset start) (d.byteOffset stop)) = behind := by
    rw [← hstop]
    exact Source.suffix_of_eq_append (by rw [hchars, List.append_assoc])
  simp only [splice, hfront, hbehind]
  rfl

/-- The part between two places that are given as offsets in code units. -/
lemma splice_utf16 (insert : List Char) :
    d.splice (.utf16 (utf16Length front)) (.utf16 (utf16Length front + utf16Length between))
        insert =
      .ofSource d.fileName (.ofChars (front ++ insert ++ behind)) := by
  have hstart : d.byteOffset (.utf16 (utf16Length front)) = byteLength front := by
    rw [byteOffset, hchars, byteOfUtf16_append]
  have hstop : d.byteOffset (.utf16 (utf16Length front + utf16Length between)) =
      byteLength (front ++ between) := by
    rw [byteOffset, ← utf16Length_append, hchars, ← List.append_assoc, byteOfUtf16_append]
  refine splice_eq hchars hstart.symm ?_ insert
  rw [hstart, hstop, byteLength_append]
  exact (Nat.max_eq_right (Nat.le_add_right _ _)).symm

end

/-- **Splicing is safe and exact.**  For any two places, what is kept in front of the first one and
behind the second one is there, and the edit is the document of these two parts with the inserted
text between them, under the same name.  And an edit between two cuts is undone by putting back
what stood between them. -/
theorem splice_exact (d : Document) (insert : List Char) :
    (∀ start stop : Location, ∃ front behind,
      d.source.slice? 0 (d.byteOffset start) = some front ∧
        d.source.suffix? (max (d.byteOffset start) (d.byteOffset stop)) = some behind ∧
        d.splice start stop insert =
          .ofSource d.fileName (.ofChars (front ++ insert ++ behind))) ∧
      ∀ p q, d.source.IsCut p → d.source.IsCut q → p ≤ q →
        let b := utf16OfByte d.source.chars p
        let edited := d.splice (.utf16 b) (.utf16 (utf16OfByte d.source.chars q)) insert
        let restored :=
          edited.splice (.utf16 b) (.utf16 (b + utf16Length insert)) (d.source.slice p q)
        restored.fileName = d.fileName ∧ restored.source.chars = d.source.chars := by
  refine ⟨fun start stop => ?_, fun p q hp hq hle =>
    ⟨(fileName_splice _ _ _ _).trans (fileName_splice _ _ _ _), ?_⟩⟩
  · obtain ⟨front, between, behind, hchars, hfront, hbetween⟩ := d.exists_parts start stop
    refine ⟨front, behind, ?_, ?_, splice_eq hchars hfront hbetween insert⟩
    · rw [← hfront, Source.slice?_zero_of_eq_append hchars]
    · rw [← hbetween, Source.suffix?_eq, hchars, ← List.append_assoc, dropBytes?_append]
  · obtain ⟨front, between, behind, hchars, rfl, rfl, hslice⟩ := hp.exists_append hq hle
    have hq : utf16OfByte d.source.chars (byteLength (front ++ between)) =
        utf16Length front + utf16Length between := by
      rw [hchars, utf16OfByte_append, utf16Length_append]
    rw [List.append_assoc] at hchars
    have hp : utf16OfByte d.source.chars (byteLength front) = utf16Length front := by
      rw [hchars, utf16OfByte_append]
    have hedited : (ofSource d.fileName (.ofChars (front ++ insert ++ behind))).source.chars =
        front ++ (insert ++ behind) := by
      rw [source_ofSource, Source.chars_ofChars, List.append_assoc]
    rw [hq, hp, hslice, splice_utf16 hchars, splice_utf16 hedited, source_ofSource,
      Source.chars_ofChars, hchars, List.append_assoc]

/-- A character of two code units and four bytes, with another one in front of it. -/
theorem splice_exact_surrogates :
    let d := ofSource "a.ts" (.ofString "é𝒳z")
    d.source.IsCut 2 ∧ d.source.IsCut 6 ∧ 2 ≤ 6 ∧
      let b := utf16OfByte d.source.chars 2
      let edited := d.splice (.utf16 b) (.utf16 (utf16OfByte d.source.chars 6)) ['𝒴', 'x']
      let restored := edited.splice (.utf16 b) (.utf16 (b + utf16Length ['𝒴', 'x']))
        (d.source.slice 2 6)
      restored.fileName = d.fileName ∧ restored.source.chars = d.source.chars := by
  have hchars : (ofSource "a.ts" (.ofString "é𝒳z")).source.chars = ['é', '𝒳', 'z'] := by
    rw [source_ofSource]
    rfl
  have hstart : (ofSource "a.ts" (.ofString "é𝒳z")).source.IsCut 2 :=
    Source.isCut_iff.mpr ⟨['é'], _, hchars, rfl⟩
  have hstop : (ofSource "a.ts" (.ofString "é𝒳z")).source.IsCut 6 :=
    Source.isCut_iff.mpr ⟨['é', '𝒳'], _, hchars, rfl⟩
  exact ⟨hstart, hstop, by decide, (splice_exact _ _).2 2 6 hstart hstop (by decide)⟩

end InlineValues.Document

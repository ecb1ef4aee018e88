import InlineValues.Document.Basic
import InlineValues.Proofs.Query.Report
import InlineValues.Proofs.Text.Utf16

/-!
# Nothing is lost in the units of the editor

The values of a tree begin and end between two characters (`cuts_of_mem_inlineValues`), where the
conversions between bytes and UTF-16 code units undo each other (`byteSpan_utf16Span`).  So the
values of a document are the values of its tree, and `byteSpan_values` gets these back from those.

The text has to have a 32-bit size, since the end of a span is held at `maxOffset`.
-/

namespace InlineValues.Document

variable {d : Document} {span : Span}

/-- The length of a span of UTF-16 code units is the distance of its ends: of no span is the end
in front of the start. -/
lemma start_add_length_utf16Span (hstart : span.start ≤ maxOffset) :
    (d.utf16Span span).start + (d.utf16Span span).length =
      utf16OfByte d.source.chars span.stop := by
  have hle : span.start ≤ span.stop := by
    simp only [Span.stop]
    omega
  exact Nat.add_sub_cancel' (utf16OfByte_mono d.source.chars hle)

section

variable (hsize : d.source.size ≤ maxOffset) (hspan : span.Cuts d.source)
include hsize hspan

lemma stop_utf16Span : (d.utf16Span span).stop = utf16OfByte d.source.chars span.stop := by
  refine Span.stop_ofBounds (utf16OfByte_mono _ ?_)
    (Nat.le_trans (d.source.utf16OfByte_le_size _) hsize)
  rw [hspan.stop_eq hsize]
  omega

/-- A span between two characters keeps its ends in the units of the editor. -/
theorem byteSpan_utf16Span : d.byteSpan (d.utf16Span span) = span := by
  have hstop := hspan.stop
  rw [byteSpan, stop_utf16Span hsize hspan, hspan.stop_eq hsize,
    hstop.byteOfUtf16_utf16OfByte, utf16Span, Span.start_ofBounds,
    hspan.start.byteOfUtf16_utf16OfByte, Span.ofBounds, Nat.add_sub_cancel_left]

/-- The code units of a span between two characters are those of its text. -/
lemma take_utf16Units_utf16Span :
    ((utf16Units d.source.chars).drop (d.utf16Span span).start).take (d.utf16Span span).length =
      utf16Units (d.source.slice span.start span.stop) := by
  rw [utf16Span, Span.ofBounds, hspan.stop_eq hsize]
  exact hspan.start.take_utf16Units hspan.stop (Nat.le_add_right _ _)

end

/-- **Spans keep their text in other units.**  The values of a document are the values of its tree
at the same place, in the same order and with the same texts: their spans in bytes are got back from
their spans in UTF-16 code units, and between the ends of these stands the same text.  No conversion
of a span to code units goes below zero. -/
theorem byteSpan_values (hsize : d.source.size ≤ maxOffset) (limits : ScopeLimits)
    (place : Location) (visible : Option Span) :
    (d.values limits place visible).map (·.mapSpan d.byteSpan) =
        inlineValues limits d.file (d.byteOffset place) (visible.elim .everything d.byteSpan) ∧
      (∀ v ∈ d.values limits place visible,
        ((utf16Units d.source.chars).drop v.span.start).take v.span.length =
          utf16Units
            (d.source.slice (d.byteSpan v.span).start (d.byteSpan v.span).stop)) ∧
      ∀ span : Span, span.start ≤ maxOffset → span.length ≤ maxOffset →
        (d.utf16Span span).start + (d.utf16Span span).length =
          utf16OfByte d.source.chars span.stop := by
  have hvalues : d.values limits place visible =
      (inlineValues limits d.file (d.byteOffset place)
        (visible.elim .everything d.byteSpan)).map (·.mapSpan d.utf16Span) := by
    cases visible <;> rfl
  have hcuts : ∀ v ∈ inlineValues limits d.file (d.byteOffset place)
      (visible.elim .everything d.byteSpan), v.span.Cuts d.source := by
    intro v hv
    rw [d.file_eq] at hv
    exact cuts_of_mem_inlineValues _ _ _ _ _ hv
  rw [hvalues]
  refine ⟨?_, ?_, fun span hstart _ => start_add_length_utf16Span hstart⟩
  · rw [List.map_map]
    refine (List.map_congr_left fun v hv => ?_).trans (List.map_id _)
    rw [Function.comp_apply, InlineValue.mapSpan_mapSpan]
    exact InlineValue.mapSpan_eq_self (byteSpan_utf16Span hsize (hcuts v hv))
  · intro wire hwire
    obtain ⟨v, hv, rfl⟩ := List.mem_map.mp hwire
    rw [InlineValue.span_mapSpan, byteSpan_utf16Span hsize (hcuts v hv)]
    exact take_utf16Units_utf16Span hsize (hcuts v hv)

/-- Behind a name of two code units and four bytes. -/
theorem byteSpan_values_surrogates :
    let d := ofSource "a.ts" (.ofString "let 𝒳 = 1, y = 2; z")
    d.source.size ≤ maxOffset ∧
      d.values {} (.utf16 19) none =
        [.lookup ⟨4, 2⟩ ['𝒳'], .lookup ⟨12, 1⟩ ['y']] ∧
      (d.values {} (.utf16 19) none).map (·.mapSpan d.byteSpan) =
        inlineValues {} d.file (d.byteOffset (.utf16 19)) .everything ∧
      (∀ v ∈ d.values {} (.utf16 19) none,
        ((utf16Units d.source.chars).drop v.span.start).take v.span.length =
          utf16Units
            (d.source.slice (d.byteSpan v.span).start (d.byteSpan v.span).stop)) ∧
      ∀ span : Span, span.start ≤ maxOffset → span.length ≤ maxOffset →
        (d.utf16Span span).start + (d.utf16Span span).length =
          utf16OfByte d.source.chars span.stop :=
  have hsize : (ofSource "a.ts" (.ofString "let 𝒳 = 1, y = 2; z")).source.size ≤ maxOffset := by
    rw [source_ofSource]
    decide
  ⟨hsize, by decide +kernel, byteSpan_values hsize {} (.utf16 19) none⟩

end InlineValues.Document

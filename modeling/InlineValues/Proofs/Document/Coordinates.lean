import InlineValues.Document.Report
import InlineValues.Proofs.Document.Units
import InlineValues.Proofs.Grammar.ParsedFile
import InlineValues.Proofs.Text.LineMap
import Mathlib.Data.List.Forall2

/-!
# Printed coordinates lead back to the value

A report shows each value with the line and the column of its start.  A user who types these into a
query again comes back to that start (`Document.byteOffset_reportLine`).

Two facts carry this through the conversions.  What is shown starts at a token and never at the end
of a line (`front_of_mem_inlineValues`), so that its line, with the end taken off, still holds it.
And it starts between two characters, where no conversion rounds.  The size of the text plays no
part, since only starts are converted.
-/

namespace InlineValues

/-- What is shown next to the code starts neither at a blank nor at the end of a line. -/
theorem front_of_mem_inlineValues (fileName : String) (s : Source) (limits : ScopeLimits)
    (offset : Nat) (visible : Span) {v : InlineValue}
    (hv : v ∈ inlineValues limits (parse fileName s) offset visible) {a : Char}
    (ha : (s.cursor v.span.start).peek? = some a) : isLineBreak a = false ∧ isBlank a = false := by
  obtain ⟨r, hr, rfl⟩ := List.mem_map.mp hv
  obtain ⟨c, hc, hin⟩ := inside_reportedNodes fileName s limits offset visible hr
  have hw := on_walkAt fileName s limits offset visible
  have hwithin := hin.within.trans (hw.scopes c (List.mem_of_getLast? hc))
  have hcut := ((laidOut_root_parse fileName s).1.within hwithin).placed.pos_cut
  rw [source_parse, Reported.span_value, Node.span, Span.start_ofBounds,
    start_eq_of_parse hwithin hin.filled] at ha
  exact front_skipTrivia hcut ha

namespace Document

/-- A line and a column that are shown for a cut of the text lead back to it, unless a line feed
stands there. -/
lemma byteOffset_position (d : Document) {p : Nat} (h : d.source.IsCut p)
    (hfeed : (d.source.cursor p).peek? ≠ some '\n') :
    d.byteOffset (.lineColumn (d.position (utf16OfByte d.source.chars p)).line
      (d.position (utf16OfByte d.source.chars p)).column) = p := by
  have hlines : d.lines = .ofSource d.source := d.lines_eq
  have hback := LineMap.offset?_position h hfeed
  rw [position, h.byteOfUtf16_utf16OfByte, byteOffset, hlines]
  exact congrArg (Option.getD · d.source.size) hback

/-- The values of a document are those of its tree, in the units of the editor. -/
lemma values_eq (d : Document) (limits : ScopeLimits) (place : Location)
    (visible : Option Span) :
    d.values limits place visible =
      (inlineValues limits d.file (d.byteOffset place)
        (visible.elim .everything d.byteSpan)).map (·.mapSpan d.utf16Span) := by
  cases visible <;> rfl

/-- **Reported coordinates lead back to the value.**  The line of the report for each value begins
with a line and a column, and the byte offset of these, as an editor would ask for it, is where the
value starts in the tree of the document.  This holds in every document, whatever characters stand
in front of the value. -/
theorem byteOffset_reportLine (d : Document) (limits : ScopeLimits) (place : Location)
    (visible : Option Span) :
    List.Forall₂
      (fun wire v => wire = v.mapSpan d.utf16Span ∧
        let p := d.position wire.span.start
        (Nat.repr p.line).toList ++ ':' :: (Nat.repr p.column).toList ++ ['\t'] <+:
            d.reportLine wire ∧
          d.byteOffset (.lineColumn p.line p.column) = v.span.start)
      (d.values limits place visible)
      (inlineValues limits d.file (d.byteOffset place) (visible.elim .everything d.byteSpan)) := by
  rw [values_eq, List.forall₂_map_left_iff, List.forall₂_same]
  intro v hv
  rw [d.file_eq] at hv
  have hcut := (cuts_of_mem_inlineValues _ _ _ _ _ hv).start
  refine ⟨rfl, ⟨_, by simp [reportLine]; rfl⟩, ?_⟩
  rw [InlineValue.span_mapSpan, utf16Span, Span.start_ofBounds]
  apply d.byteOffset_position hcut
  intro hfeed
  have hfront := (front_of_mem_inlineValues _ _ _ _ _ hv hfeed).1
  exact absurd hfront (by decide)

-- Lines that end in three ways, and characters of up to four bytes and two code units.
example :
    let d := ofSource "a.ts"
      (.ofString "#!x\r\nlet é = 1;\r/*𝒳\u2028*/ 𝒳.é = 2; /*𝒳*/ d++;\nend")
    d.report (d.values {} (.utf16 46) none) =
        "2:5\tlookup\té\n3:9\texpr\t𝒳.é\n3:26\tlookup\td\n".toList ∧
      [(2, 5), (3, 9), (3, 26)].map (fun (l, c) => d.byteOffset (.lineColumn l c)) =
        (inlineValues {} d.file (d.byteOffset (.utf16 46)) .everything).map (·.span.start) := by
  decide +kernel

end Document

end InlineValues

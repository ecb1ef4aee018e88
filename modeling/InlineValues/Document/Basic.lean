import InlineValues.Query.Collect

/-!
# Documents

A `Document` is a source text that an editor holds open, together with its tree and its lines.
Editors count UTF-16 code units and speak of lines and columns from one on, while the tree counts
bytes.  This module converts between the two, and edits and queries a document in the units of
the editor.

That tree and lines belong to the text is part of the type.
-/

namespace InlineValues

/-- A place in a text, as an editor gives it. -/
inductive Location where
  /-- A line, and a column in UTF-16 code units.  Both are counted from one. -/
  | lineColumn (line column : Nat)
  /-- An offset in UTF-16 code units, counted from zero. -/
  | utf16 (offset : Nat)
  deriving DecidableEq, Repr

/-- A source text with its tree and its lines. -/
structure Document where
  fileName : String
  file : ParsedFile
  lines : LineMap
  file_eq : file = parse fileName file.source
  lines_eq : lines = .ofSource file.source

namespace Document

/-- The document that holds a text. -/
def ofSource (fileName : String) (s : Source) : Document where
  fileName
  file := parse fileName s
  lines := .ofSource s
  file_eq := by rw [source_parse]
  lines_eq := by rw [source_parse]

/-- The text of a document. -/
def source (d : Document) : Source := d.file.source

@[simp] theorem source_ofSource (fileName : String) (s : Source) :
    (ofSource fileName s).source = s := source_parse fileName s

@[simp] theorem fileName_ofSource (fileName : String) (s : Source) :
    (ofSource fileName s).fileName = fileName := rfl

/-! ## Units -/

/-- The byte offset of a place.  A place behind the text is its end. -/
def byteOffset (d : Document) : Location → Nat
  | .utf16 offset => byteOfUtf16 d.source.chars offset
  | .lineColumn line column =>
    (d.lines.offset? d.source ⟨line - 1, column - 1⟩).getD d.source.size

/-- A span of UTF-16 code units as a span of bytes. -/
def byteSpan (d : Document) (s : Span) : Span :=
  .ofBounds (byteOfUtf16 d.source.chars s.start) (byteOfUtf16 d.source.chars s.stop)

/-- A span of bytes as a span of UTF-16 code units. -/
def utf16Span (d : Document) (s : Span) : Span :=
  .ofBounds (utf16OfByte d.source.chars s.start) (utf16OfByte d.source.chars s.stop)

/-! ## Edits -/

/-- Put another text in the place of the whole one. -/
def replace (d : Document) (text : List Char) : Document := .ofSource d.fileName (.ofChars text)

/-- Put a text in the place of what stands between two places.  If the second one lies in front of
the first one, the text is inserted at the first one. -/
def splice (d : Document) (start stop : Location) (insert : List Char) : Document :=
  let start := d.byteOffset start
  let stop := max start (d.byteOffset stop)
  d.replace (d.source.slice 0 start ++ insert ++ d.source.suffix stop)

@[simp] theorem fileName_replace (d : Document) (text : List Char) :
    (d.replace text).fileName = d.fileName := rfl

@[simp] theorem fileName_splice (d : Document) (start stop : Location) (insert : List Char) :
    (d.splice start stop insert).fileName = d.fileName := rfl

/-! ## Values -/

/-- The values to be shown while a program is paused at a place, with their spans in UTF-16 code
units.  Without a visible part, the whole text is visible. -/
def values (d : Document) (limits : ScopeLimits) (place : Location) (visible : Option Span) :
    List InlineValue :=
  let visible := match visible with
    | some s => d.byteSpan s
    | none => .everything
  (inlineValues limits d.file (d.byteOffset place) visible).map fun v => v.mapSpan d.utf16Span

end Document

end InlineValues

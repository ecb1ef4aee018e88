import InlineValues.Document.Basic
import InlineValues.Json.Writer

/-!
# Reporting values

The two forms in which the values of a document are reported: as JSON, which is what an editor
reads, and as lines of text, one for each value, with the line and the column where it stands.
-/

namespace InlineValues

/-- A value as JSON. -/
def InlineValue.toJson (v : InlineValue) : Json :=
  let (type, field) : String × String := match v with
    | lookup .. => ("VariableLookup", "variableName")
    | expression .. => ("EvaluatableExpression", "expression")
  .object [("type", .string type), ("start", .natural v.span.start),
    ("length", .natural v.span.length), (field, .string (String.ofList v.text))]

/-- The word for a value in a line of text. -/
def InlineValue.word : InlineValue → String
  | lookup .. => "lookup"
  | expression .. => "expr"

namespace Document

/-- The line and the column, counted from one, of an offset in UTF-16 code units. -/
def position (d : Document) (offset : Nat) : Position :=
  let p := d.lines.position d.source (byteOfUtf16 d.source.chars offset)
  ⟨p.line + 1, p.column + 1⟩

/-- The line of text for a value. -/
def reportLine (d : Document) (v : InlineValue) : List Char :=
  let p := d.position v.span.start
  (Nat.repr p.line).toList ++ ':' :: (Nat.repr p.column).toList ++ '\t' :: v.word.toList ++
    '\t' :: v.text ++ ['\n']

/-- The lines of text for some values. -/
def report (d : Document) (values : List InlineValue) : List Char := values.flatMap d.reportLine

end Document

end InlineValues

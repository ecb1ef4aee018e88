import InlineValues.CommandLine.Limits
import InlineValues.Document.Report
import InlineValues.Session.Server

/-!
# A single query

The first of the two programs reads a file and reports the values that are worth showing at a place.
The place is a line and a column, or an offset.
-/

namespace InlineValues

/-- The forms of a report. -/
inductive ReportForm where
  | text
  | json
  deriving DecidableEq, Repr

/-- The form of a name.  Case does not matter. -/
def ReportForm.ofName? (name : String) : Option ReportForm :=
  match String.ofList (name.toList.map Char.toLower) with
  | "text" => some text
  | "json" => some json
  | _ => none

/-! ## Arguments -/

/-- The options of a query. -/
inductive QueryOption where
  | file
  | line
  | offset
  | position
  | start
  | length
  | format
  | limit (option : LimitOption)
  deriving DecidableEq, Repr

/-- The option of a long name. -/
def QueryOption.named : String → Option QueryOption
  | "line" => some line
  | "offset" => some offset
  | "position" => some position
  | "start" => some start
  | "length" => some length
  | "format" => some format
  | name => (LimitOption.named name).map limit

/-- The arguments of a query, as they were given. -/
structure GivenQuery where
  file : Option String := none
  line : Option Nat := none
  offset : Option Nat := none
  position : Option Nat := none
  start : Option Nat := none
  length : Option Nat := none
  format : Option ReportForm := none
  limits : GivenLimits := {}
  deriving DecidableEq, Repr

/-- A query. -/
structure Query where
  file : String
  place : Location
  visible : Option Span
  limits : ScopeLimits
  form : ReportForm
  deriving DecidableEq, Repr

namespace GivenQuery

/-- Store a value. -/
def store (given : GivenQuery) (option : QueryOption) (value : String) :
    Except UsageError GivenQuery :=
  match option with
  | .file => do
    let file := if value.isEmpty then .error .invalidValue else .ok value
    return { given with file := ← storeOnce given.file file }
  | .line => do return { given with line := ← storeOnce given.line (offsetOption value) }
  | .offset => do return { given with offset := ← storeOnce given.offset (offsetOption value) }
  | .position => do
    return { given with position := ← storeOnce given.position (offsetOption value) }
  | .start => do return { given with start := ← storeOnce given.start (offsetOption value) }
  | .length => do return { given with length := ← storeOnce given.length (offsetOption value) }
  | .format => do
    let format := match ReportForm.ofName? value with
      | some format => .ok format
      | none => .error .invalidValue
    return { given with format := ← storeOnce given.format format }
  | .limit option => do return { given with limits := ← given.limits.store option value }

/-- The place that was given.  A line and a column belong together and exclude an offset.  A column
alone is passed over where there is an offset. -/
def place (given : GivenQuery) : Except UsageError Location :=
  match given.line, given.offset, given.position with
  | some _, _, some _ => .error .conflict
  | some line, some column, none => .ok (.lineColumn line column)
  | none, _, some offset => .ok (.utf16 offset)
  | _, _, none => .error .missingArgument

/-- The visible part that was given.  Its start and its length belong together. -/
def visible (given : GivenQuery) : Except UsageError (Option Span) :=
  match given.start, given.length with
  | some start, some length => .ok (some ⟨start, length⟩)
  | none, none => .ok none
  | _, _ => .error .missingArgument

/-- The query that was given. -/
def query (given : GivenQuery) : Except UsageError Query := do
  let place ← given.place
  let visible ← given.visible
  match given.file with
  | some file =>
    return { file, place, visible, limits := given.limits.limits, form := given.format.getD .text }
  | none => throw .missingArgument

end GivenQuery

/-- The options of a query. -/
def queryOptions : OptionTable QueryOption GivenQuery where
  named := QueryOption.named
  operand := some .file
  store := GivenQuery.store

/-- The query that a list of arguments asks for. -/
def Query.ofArguments (arguments : List String) : Except UsageError Query := do
  (← queryOptions.read {} arguments).query

/-! ## Answers -/

/-- The report on some values. -/
def Document.reportIn (d : Document) (form : ReportForm) (values : List InlineValue) :
    List Char :=
  match form with
  | .text => d.report values
  | .json => (Json.array (values.map InlineValue.toJson)).pretty.toList

/-- The answer to a query about a file with some text. -/
def Query.answer (q : Query) (text : String) : List Char :=
  let d := Document.ofSource q.file (.ofString text)
  d.reportIn q.form (d.values q.limits q.place q.visible)

/-- What is said of a file that cannot be read. -/
def unreadableFile (file : String) : String := "failed to read " ++ file

end InlineValues

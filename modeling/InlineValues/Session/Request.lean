import InlineValues.Document.Basic
import InlineValues.Json.Reader

/-!
# Requests

A request is a JSON object with a number, a command and arguments, or an array of these in order.
`Request.ofText?` decodes one strictly: a field that is there twice or has a value of the wrong kind
makes the request invalid, while fields it does not know are passed over.

`Request.command?` reads the command and its arguments.  Here nothing is strict: an argument of the
wrong kind counts as missing, and where a default exists it takes its place.
-/

namespace InlineValues

/-- A request. -/
structure Request where
  seq : Nat
  command : String
  arguments : Json

/-- Why a request failed. -/
inductive Failure where
  /-- The text is no request, for a reason that the decoder gives. -/
  | invalidRequest (reason : String := "")
  | unknownCommand (command : String)
  /-- A command, under its short name, came without a file. -/
  | missingFile (command : String)
  /-- Values were asked for without a place. -/
  | missingPlace
  | unreadable (file reason : String)
  deriving DecidableEq, Repr

/-- The text of a failure. -/
def Failure.message : Failure → String
  | invalidRequest reason => "invalid request: " ++ reason
  | unknownCommand command => "Unrecognized command: " ++ command
  | missingFile command => command ++ ": missing 'file'"
  | missingPlace => "provideInlineValues: expected 'line'/'offset' or 'position'"
  | unreadable file reason => "open: cannot read " ++ file ++ ": " ++ reason

namespace Request

/-! ## Decoding -/

/-- How deep the arguments of a request may be nested. -/
def maxNesting : Nat := 126

/-- The values of the fields of a request; the type and the arguments may be missing. -/
def ofFields? (seq : Json) (type : Option Json) (command : Json) (arguments : Option Json) :
    Option Request := do
  let seq ← seq.asNatural?
  if let some type := type then
    let _ ← type.asString?
  let command ← command.asString?
  let arguments := arguments.getD .null
  if arguments.fits maxNesting then some { seq, command, arguments } else none

/-- Whether an object names a field at most once. -/
def namesOnce (members : List (String × Json)) (name : String) : Bool :=
  (members.filter fun m => m.1 == name).length ≤ 1

/-- The request that a JSON value denotes. -/
def ofJson? : Json → Option Request
  | value@(.object members) =>
    if ["seq", "type", "command", "arguments"].all (namesOnce members) then do
      ofFields? (← value.member? "seq") (value.member? "type") (← value.member? "command")
        (value.member? "arguments")
    else none
  | .array [seq, type, command] => ofFields? seq (some type) command none
  | .array [seq, type, command, arguments] => ofFields? seq (some type) command (some arguments)
  | _ => none

/-- The request that a text denotes. -/
def ofText? (text : String) : Option Request := do ofJson? (← Json.parse? text)

end Request

/-! ## Commands -/

/-- A change of a document. -/
inductive Edit where
  | replace (text : String)
  | splice (start stop : Location) (insert : String)

/-- What a request asks for. -/
inductive Command where
  /-- Hold a document open.  Without a content, its text is read from its file. -/
  | openFile (file : String) (content : Option String)
  | closeFile (file : Option String)
  | change (file : String) (edit : Edit)
  | provideInlineValues (file : String) (place : Location) (visible : Option Span)
  | exit

namespace Request

/-- An argument that is a text. -/
def text? (r : Request) (name : String) : Option String :=
  (r.arguments.member? name).bind Json.asString?

/-- An argument that is a 32-bit number. -/
def offset? (r : Request) (name : String) : Option Nat :=
  ((r.arguments.member? name).bind Json.asNatural?).filter (· ≤ maxOffset)

/-- The change that a request asks for: a new text, or else a text to insert between two places.
The places start out as the start of the text, and the second one as the first one. -/
def edit (r : Request) : Edit :=
  match r.text? "fileContent" with
  | some text => .replace text
  | none =>
    let line := (r.offset? "line").getD 1
    let column := (r.offset? "offset").getD 1
    .splice (.lineColumn line column)
      (.lineColumn ((r.offset? "endLine").getD line) ((r.offset? "endOffset").getD column))
      ((r.text? "insertString").getD "")

/-- The place that a request names.  Line and column come before an offset. -/
def place? (r : Request) : Option Location :=
  match r.offset? "line", r.offset? "offset", r.offset? "position" with
  | some line, some column, _ => some (.lineColumn line column)
  | _, _, some offset => some (.utf16 offset)
  | _, _, none => none

/-- The visible part of the text, if a request names one. -/
def visible? (r : Request) : Option Span := do
  return ⟨← r.offset? "start", ← r.offset? "length"⟩

/-- The file that a request names, under which it fails if it names none. -/
def file (r : Request) (command : String) : Except Failure String :=
  match r.text? "file" with
  | some file => .ok file
  | none => .error (.missingFile command)

/-- The command of a request. -/
def command? (r : Request) : Except Failure Command := do
  match r.command with
  | "open" => return .openFile (← r.file "open") (r.text? "fileContent")
  | "close" => return .closeFile (r.text? "file")
  | "change" => return .change (← r.file "change") r.edit
  | "typescript/extra/provideInlineValues" =>
    let file ← r.file "provideInlineValues"
    match r.place? with
    | some place => return .provideInlineValues file place r.visible?
    | none => throw .missingPlace
  | "exit" => return .exit
  | command => throw (.unknownCommand command)

end Request

end InlineValues

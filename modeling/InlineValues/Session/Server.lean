import InlineValues.Document.Report
import InlineValues.Session.Request
import Std.Data.HashMap

/-!
# The server

A `Server` holds documents open and answers requests about them.  Every request gets one response,
and the responses are numbered from one on.  A request that fails changes no document.

The server reads files only to open a document whose text the request leaves out.  What a file holds
is a parameter, `Files`.
-/

namespace InlineValues

/-- What reading a file gives: its text, or the reason why there is none. -/
abbrev Files := String → Except String String

/-- A response: the number and the command of the request it belongs to, and what became of it. -/
structure Response where
  seq : Nat
  command : String
  requestSeq : Nat
  outcome : Except Failure (Option Json)

namespace Response

/-- A response as JSON. -/
def toJson (r : Response) : Json :=
  .object
    ([("seq", .natural r.seq), ("type", .string "response"), ("command", .string r.command),
      ("request_seq", .natural r.requestSeq)] ++
      match r.outcome with
      | .ok none => [("success", .bool true)]
      | .ok (some body) => [("success", .bool true), ("body", body)]
      | .error failure => [("success", .bool false), ("message", .string failure.message)])

end Response

/-- The documents that are held open, by name. -/
abbrev Documents := Std.HashMap String Document

/-- A server. -/
structure Server where
  limits : ScopeLimits := {}
  documents : Documents := {}
  /-- How many responses were given. -/
  answered : Nat := 0

namespace Server

/-- The document of a file that is held open. -/
def document? (s : Server) (file : String) : Option Document := s.documents[file]?

/-- Change a document. -/
def applyEdit (d : Document) : Edit → Document
  | .replace text => d.replace text.toList
  | .splice start stop insert => d.splice start stop insert.toList

/-- The values of a document as JSON.  A file that is not open yet has none. -/
def valuesOf (s : Server) (file : String) (place : Location) (visible : Option Span) : Json :=
  match s.document? file with
  | some d => .array ((d.values s.limits place visible).map InlineValue.toJson)
  | none => .array []

/-- Carry out a command: what is answered, and the documents behind it. -/
def perform (files : Files) (s : Server) : Command → Except Failure (Option Json) × Documents
  | .openFile file content =>
    match content.elim (files file) .ok with
    | .ok text => (.ok none, s.documents.insert file (.ofSource file (.ofString text)))
    | .error reason => (.error (.unreadable file reason), s.documents)
  | .closeFile (some file) => (.ok none, s.documents.erase file)
  | .closeFile none => (.ok none, s.documents)
  | .change file edit =>
    match s.document? file with
    | some d => (.ok none, s.documents.insert file (applyEdit d edit))
    | none => (.ok none, s.documents)
  | .provideInlineValues file place visible =>
    (.ok (some (s.valuesOf file place visible)), s.documents)
  | .exit => (.ok none, s.documents)

/-- Give the next response. -/
def respond (s : Server) (command : String) (requestSeq : Nat)
    (outcome : Except Failure (Option Json)) : Response × Server :=
  (⟨s.answered + 1, command, requestSeq, outcome⟩, { s with answered := s.answered + 1 })

/-- Answer a request. -/
def handle (files : Files) (s : Server) (r : Request) : Response × Server :=
  match r.command? with
  | .ok command =>
    let (outcome, documents) := s.perform files command
    { s with documents }.respond r.command r.seq outcome
  | .error failure => s.respond r.command r.seq (.error failure)

/-- The file that must be read before a request can be answered. -/
def fileToRead? (r : Request) : Option String :=
  match r.command? with
  | .ok (.openFile file none) => some file
  | _ => none

end Server

end InlineValues

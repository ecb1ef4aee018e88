import InlineValues.CommandLine.Query
import InlineValues.CommandLine.Serve
import InlineValues.Session.Run

/-!
# The programs

With `serve` as its first argument the program answers requests on its standard input until that
ends.  Otherwise it answers a single query about a file.
-/

namespace InlineValues
namespace Main

/-- How the program is called. -/
def usage : String :=
  "inline-values <file> (--line <n> --offset <n> | --position <n>) [--start <n> --length <n>]\n" ++
  "  [--maxStrongScopes <n>] [--maxScopes <n>] [--format text|json]\n" ++
  "inline-values serve [--protocol tsserver|legacy] [--maxStrongScopes <n>] [--maxScopes <n>]\n"

/-- What is said of arguments that lead to no run. -/
def complaint : UsageError → String
  | .missingArgument => "a required argument is missing"
  | .conflict => "two arguments exclude each other"
  | .malformedNumber => "a value is not a number of the right size"
  | .invalidValue => "a value is missing or not one of those that are possible"
  | .unknownArgument => "unknown argument"
  | .superfluousValue => "an option takes no value"
  | .helpWanted | .versionWanted => ""

/-- Report arguments that lead to no run. -/
def refuse (e : UsageError) : IO UInt32 := do
  match e with
  | .helpWanted => (← IO.getStdout).putStr usage; return 0
  | .versionWanted => (← IO.getStdout).putStr "inline-values 0.1.0\n"; return 0
  | e => (← IO.getStderr).putStr ("error: " ++ complaint e ++ "\n\n" ++ usage); return 2

/-- Report a fault at run time. -/
def fail (message : String) : IO UInt32 := do
  (← IO.getStderr).putStr ("error: " ++ message ++ "\n")
  return 1

/-- Read a file. -/
def readFile (path : String) : IO (Except String String) := do
  try
    return .ok (← IO.FS.readFile path)
  catch e => return .error (toString e)

/-- Answer a query. -/
def query (q : Query) : IO UInt32 := do
  match ← readFile q.file with
  | .error reason => fail (unreadableFile q.file ++ ": " ++ reason)
  | .ok text =>
    let out := String.ofList (q.answer text)
    (← IO.getStdout).putStr (if out.endsWith "\n" then out else out ++ "\n")
    return 0

/-- Read as many bytes as are asked for, or up to the end. -/
partial def readBytes (input : IO.FS.Stream) (length : Nat) (read : ByteArray) : IO ByteArray := do
  if length ≤ read.size then return read
  let bytes ← input.read (USize.ofNat (min (length - read.size) 65536))
  if bytes.isEmpty then return read
  readBytes input length (read ++ bytes)

/-- What is said of a text that is no request. -/
def noRequest (_text : String) : String := "it is no JSON object with a number and a command"

/-- React to a message, and say whether the session ends. -/
def react (protocol : Protocol) (server : Server) (message : List Char) : IO (Server × Bool) := do
  let files : Files ← match (Request.ofText? (String.ofList message)).bind Server.fileToRead? with
    | some path => do
      let content ← readFile path
      pure fun _ => content
    | none => pure fun _ => .error ""
  let reaction := server.receive ⟨fun _ => files, noRequest⟩ message
  if let some response := reaction.response then
    let output ← IO.getStdout
    output.putStr (protocol.frameResponse response)
    output.flush
  return (reaction.server, reaction.exits)

/-- Answer requests until the input ends or a request asks to exit. -/
partial def serve (protocol : Protocol) (server : Server) (awaited : AwaitedLine) : IO UInt32 := do
  let input ← IO.getStdin
  let answer (message : List Char) : IO UInt32 := do
    let (server, exits) ← react protocol server message
    if exits then return 0 else serve protocol server .message
  match protocol.afterLine awaited (← input.getLine).toList with
  | .line awaited => serve protocol server awaited
  | .message text => answer text
  | .closed => return 0
  | .malformed fault => fail fault.message
  | .body length =>
    let bytes ← readBytes input length .empty
    if bytes.size < length then fail FramingFault.shortBody.message
    else
      match String.fromUTF8? bytes with
      | some text => answer text.toList
      | none => fail FramingFault.invalidText.message

end Main
end InlineValues

open InlineValues in
/-- Run the program that the arguments choose. -/
def main (arguments : List String) : IO UInt32 :=
  match arguments with
  | "serve" :: arguments =>
    match Service.ofArguments arguments with
    | .ok service => Main.serve service.protocol { limits := service.limits } .message
    | .error e => Main.refuse e
  | arguments =>
    match Query.ofArguments arguments with
    | .ok q => Main.query q
    | .error e => Main.refuse e

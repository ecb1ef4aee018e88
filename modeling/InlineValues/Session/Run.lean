import InlineValues.Session.Framing
import InlineValues.Session.Server

/-!
# A session with the server

A session reads messages until the input ends, a request asks to exit, or the framing is broken.
Every message gets one response, except a blank one, which is passed over, and every response is
written as soon as it is given.  A message that is no request gets a response too, and changes no
document.

Besides its input, a session depends on the files, which may change while it runs, and on what the
decoder says of a text that is no request.  Both are parameters, `Surroundings`.
-/

namespace InlineValues

/-- What a session depends on besides its input. -/
structure Surroundings where
  /-- What reading a file gives, by the number of responses that were given before. -/
  files : Nat → Files
  /-- The reason why a text is no request. -/
  complaint : String → String

/-- Files that do not change, and a decoder that gives no reasons. -/
instance : Coe Files Surroundings where
  coe files := ⟨fun _ => files, fun _ => ""⟩

/-- What a server does with a message. -/
structure Reaction where
  /-- The response; a blank message has none. -/
  response : Option Response
  server : Server
  /-- Whether the session ends. -/
  exits : Bool

namespace Server

/-- React to a message. -/
def receive (around : Surroundings) (s : Server) (message : List Char) : Reaction :=
  if isBlankText message then ⟨none, s, false⟩
  else
    let text := String.ofList message
    match Request.ofText? text with
    | none =>
      let (response, server) :=
        s.respond "unknown" 0 (.error (.invalidRequest (around.complaint text)))
      ⟨response, server, false⟩
    | some request =>
      let (response, server) := s.handle (around.files s.answered) request
      ⟨response, server, request.command == "exit"⟩

end Server

/-- A response as it is put on the stream. -/
def Protocol.frameResponse (p : Protocol) (r : Response) : String := p.frame r.toJson.render

/-- What a session has put out so far. -/
structure Output where
  /-- The responses, last one first. -/
  responses : List Response := []
  /-- The stream that they were written to. -/
  written : String := ""

/-- Write a response, if there is one. -/
def Output.add (p : Protocol) (out : Output) : Option Response → Output
  | some response => ⟨response :: out.responses, out.written ++ p.frameResponse response⟩
  | none => out

/-- What became of a session. -/
structure Transcript where
  responses : List Response
  /-- The stream that the responses were written to. -/
  written : String
  /-- What broke the framing, if anything did. -/
  fault : Option FramingFault
  /-- How many bytes of the input were read. -/
  consumed : Nat
  server : Server

/-- Close a session. -/
def Output.close (out : Output) (fault : Option FramingFault) (consumed : Nat) (server : Server) :
    Transcript :=
  ⟨out.responses.reverse, out.written, fault, consumed, server⟩

namespace Server

/-- Run a session over an input that is there already, behind what was put out before. -/
def runFrom (around : Surroundings) (p : Protocol) (out : Output) (s : Server) (i : Input) :
    Transcript :=
  match _h : p.next .message i with
  | .closed consumed => out.close none consumed s
  | .malformed fault consumed => out.close (some fault) consumed s
  | .message text rest =>
    let reaction := s.receive around text
    let out := out.add p reaction.response
    if reaction.exits then out.close none rest.consumed reaction.server
    else runFrom around p out reaction.server rest
termination_by i.rest.length
decreasing_by exact Protocol.length_lt_of_next _h

/-- Run a session over an input that is there already. -/
def run (around : Surroundings) (p : Protocol) (s : Server) (input : List Char) : Transcript :=
  s.runFrom around p {} ⟨input, 0⟩

end Server

end InlineValues

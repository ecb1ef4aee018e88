import InlineValues.Text.Bytes
import InlineValues.Text.Digits
import InlineValues.Text.Trim

/-!
# Framing

Messages follow each other on one stream.  With the protocol `tsserver`, a header gives the length
of a message in bytes, a blank line ends the headers, and a line that is no such header is a message
of its own.  With the protocol `legacy`, every line is a message.

A reader needs one line or one body at a time.  `Protocol.afterLine` says what follows from a line,
and so serves a stream that is still being written as well as a text that is there already, which
is what `Protocol.next` reads.
-/

namespace InlineValues

/-- How messages follow each other. -/
inductive Protocol where
  | tsserver
  | legacy
  deriving DecidableEq, Repr

/-- What is wrong with a stream of messages. -/
inductive FramingFault where
  /-- The length of a message is not a number. -/
  | invalidLength (text : List Char)
  /-- The stream ends inside a message. -/
  | shortBody
  /-- A message ends inside a character. -/
  | invalidText
  deriving DecidableEq, Repr

/-- The text of a fault. -/
def FramingFault.message : FramingFault → String
  | invalidLength text => "invalid Content-Length: " ++ String.ofList text
  | shortBody => "message body shorter than Content-Length"
  | invalidText => "invalid UTF-8 in message body"

/-! ## Lines -/

/-- What the next line of a stream can be. -/
inductive AwaitedLine where
  /-- The first line of a message. -/
  | message
  /-- A further header of a message of some length, or the blank line behind the headers. -/
  | header (length : Nat)
  deriving DecidableEq, Repr

/-- What follows from a line. -/
inductive Progress where
  | line (awaited : AwaitedLine)
  | body (length : Nat)
  | message (text : List Char)
  | closed
  | malformed (fault : FramingFault)
  deriving DecidableEq, Repr

/-- What stands behind `start` in a text that begins with it. -/
def textBehind? (start : String) (cs : List Char) : Option (List Char) :=
  if start.toList.isPrefixOf cs then some (cs.drop start.toList.length) else none

/-- What follows from a line that is not blank and comes first in a message. -/
def afterHeader (line : List Char) : Progress :=
  match textBehind? "Content-Length:" (trimmed line) with
  | none => .message (trimmed line)
  | some length =>
    match readCount? (trimmed length) with
    | some length => .line (.header length)
    | none => .malformed (.invalidLength (trimmed length))

/-- What follows from a line, given with the line feed that ends it.  At the end of the stream the
line is empty. -/
def Protocol.afterLine (p : Protocol) (awaited : AwaitedLine) (line : List Char) : Progress :=
  match awaited, p with
  | .message, .legacy => if line.isEmpty then .closed else .message line
  | .message, .tsserver =>
    if line.isEmpty then .closed
    else if isBlankText line then .line .message
    else afterHeader line
  | .header length, _ => if isBlankText line then .body length else .line (.header length)

/-! ## Reading a text -/

/-- What is left of a text, and how many bytes were read. -/
structure Input where
  rest : List Char
  consumed : Nat := 0
  deriving DecidableEq, Repr

/-- The next message of a text. -/
inductive Frame where
  | message (text : List Char) (input : Input)
  | closed (consumed : Nat)
  | malformed (fault : FramingFault) (consumed : Nat)
  deriving DecidableEq, Repr

namespace Input

/-- The next line, with the line feed that ends it; empty at the end. -/
def line (i : Input) : List Char :=
  i.rest.takeWhile (· != '\n') ++ (i.rest.dropWhile (· != '\n')).take 1

/-- What is left behind the next line. -/
def afterLine (i : Input) : Input :=
  ⟨(i.rest.dropWhile (· != '\n')).drop 1, i.consumed + byteLength i.line⟩

theorem line_append_rest (i : Input) : i.line ++ i.afterLine.rest = i.rest := by
  simp only [line, afterLine, List.append_assoc, List.take_append_drop,
    List.takeWhile_append_dropWhile]

/-- Read a body of some length. -/
def readBody (i : Input) (length : Nat) : Frame :=
  match dropBytes? i.rest length with
  | some rest => .message (takeBytes i.rest length) ⟨rest, i.consumed + length⟩
  | none =>
    if byteLength i.rest < length then .malformed .shortBody (i.consumed + byteLength i.rest)
    else .malformed .invalidText (i.consumed + length)

/-- A line that is not empty leaves less behind. -/
theorem length_afterLine_lt {i : Input} (h : i.line.isEmpty = false) :
    i.afterLine.rest.length < i.rest.length := by
  have hlength := congrArg List.length i.line_append_rest
  have hpos : i.line.length ≠ 0 := by simpa using h
  simp only [List.length_append] at hlength
  omega

end Input

/-- The next message of a text, or what follows instead of one, where `awaited` says what the next
line can be. -/
def Protocol.next (p : Protocol) (awaited : AwaitedLine) (i : Input) : Frame :=
  match p.afterLine awaited i.line with
  | .line awaited =>
    if _h : i.line.isEmpty = false then p.next awaited i.afterLine
    else .closed i.afterLine.consumed
  | .body length => i.afterLine.readBody length
  | .message text => .message text i.afterLine
  | .closed => .closed i.afterLine.consumed
  | .malformed fault => .malformed fault i.afterLine.consumed
termination_by i.rest.length
decreasing_by exact Input.length_afterLine_lt _h

/-! ## Progress -/

theorem length_dropBytes?_le {cs rest : List Char} {n : Nat} (h : dropBytes? cs n = some rest) :
    rest.length ≤ cs.length := by
  fun_induction dropBytes? cs n <;> simp_all
  omega

theorem Input.length_afterLine_le (i : Input) : i.afterLine.rest.length ≤ i.rest.length := by
  have hlength := congrArg List.length i.line_append_rest
  simp only [List.length_append] at hlength
  omega

theorem Input.length_readBody_le {i rest : Input} {length : Nat} {text : List Char}
    (h : i.readBody length = .message text rest) : rest.rest.length ≤ i.rest.length := by
  unfold readBody at h
  split at h
  · next hdrop =>
    cases h
    exact length_dropBytes?_le hdrop
  · split at h <;> cases h

/-- What a message leaves behind comes after its first line. -/
theorem Protocol.length_next_le {p : Protocol} {awaited : AwaitedLine} {i rest : Input}
    {text : List Char} (h : p.next awaited i = .message text rest) :
    rest.rest.length ≤ i.afterLine.rest.length := by
  fun_induction p.next awaited i with
  | case1 i awaited next hline hempty ih => exact Nat.le_trans (ih h) (Input.length_afterLine_le _)
  | case2 => cases h
  | case3 => exact Input.length_readBody_le h
  | case4 =>
    cases h
    exact Nat.le_refl _
  | case5 => cases h
  | case6 => cases h

/-- A message leaves less of a text behind. -/
theorem Protocol.length_lt_of_next {p : Protocol} {i rest : Input} {text : List Char}
    (h : p.next .message i = .message text rest) : rest.rest.length < i.rest.length := by
  cases hline : i.line.isEmpty with
  | false => exact Nat.lt_of_le_of_lt (length_next_le h) (Input.length_afterLine_lt hline)
  | true =>
    rw [next.eq_def] at h
    cases p <;> simp [afterLine, hline] at h

/-! ## Writing -/

/-- A message as it is put on the stream. -/
def Protocol.frame (p : Protocol) (text : String) : String :=
  match p with
  | .tsserver => "Content-Length: " ++ Nat.repr text.utf8ByteSize ++ "\r\n\r\n" ++ text
  | .legacy => text ++ "\n"

end InlineValues

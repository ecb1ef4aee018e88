import InlineValues.Proofs.Json.Roundtrip
import InlineValues.Proofs.Session.Framing
import InlineValues.Proofs.Session.Server
import InlineValues.Session.Run
import Mathlib.Data.List.Forall2
import Mathlib.Data.List.TakeDrop

/-!
# Sessions over streams of messages

A session over the frames of some messages answers these messages and nothing else
(`run_stream`).  Which messages are answered is said about the messages themselves: those that are
not blank, up to the first one that asks to exit.  What they are answered is said by
`Server.reply`, which knows nothing of frames.

A frame is read as its message, whatever follows (`Protocol.next_frame`), so that the state behind a
message depends on the messages up to it alone, and the proof is an induction over them.

The responses leave the session as a stream, too.  What stands on it is said from the other side
(`Protocol.Conveys`): whoever reads the stream with the same protocol gets one JSON text for each
response, and the members of this text say what the response is (`Response.SaidBy`).
-/

namespace InlineValues

/-! ## Blank texts -/

namespace Json

lemma isBlankText_skipBlanks {cs : List Char} (h : isBlankText cs = true) :
    isBlankText (skipBlanks cs) = true := by
  induction cs with
  | nil => rfl
  | cons c cs ih =>
    rw [skipBlanks]
    split
    · exact ih (by simpa [isBlankText] using (List.all_eq_true.mp h · <| List.mem_cons_of_mem c ·))
    · exact h

lemma isDecimalDigit_of_isWhiteSpace {c : Char} (h : isWhiteSpace c = true) :
    isDecimalDigit c = false :=
  Bool.eq_false_iff.mpr fun hdigit =>
    absurd h (Bool.eq_false_iff.mp (isWhiteSpace_of_isDecimalDigit hdigit))

/-- White space begins no number. -/
lemma readNumber_of_isBlankText {cs : List Char} (h : isBlankText cs = true) :
    readNumber cs = none := by
  cases cs with
  | nil => rfl
  | cons c cs =>
    have hspace : isWhiteSpace c = true := List.all_eq_true.mp h c List.mem_cons_self
    have hminus : c ≠ '-' := fun heq => by subst heq; exact absurd hspace (by decide)
    have hzero : c ≠ '0' := fun heq => by subst heq; exact absurd hspace (by decide)
    have hdigits : spanDigits (c :: cs) = ([], c :: cs) := by
      simp [spanDigits, List.span_eq_takeWhile_dropWhile, isDecimalDigit_of_isWhiteSpace hspace]
    have hwhole : readWhole (c :: cs) = none := by simp [readWhole, hzero, hdigits]
    simp [readNumber, hminus, hwhole]

/-- A blank text writes no value. -/
lemma parse?_of_isBlankText {cs : List Char} (h : isBlankText cs = true) :
    parse? (String.ofList cs) = none := by
  have hskipped := isBlankText_skipBlanks h
  have hread (fuel : Nat) : readValue fuel cs = none := by
    cases fuel with
    | zero => rw [readValue]
    | succ fuel =>
      rw [readValue]
      split
      all_goals first
        | exact readNumber_of_isBlankText hskipped
        | next heq =>
          rw [heq] at hskipped
          exact absurd (List.all_eq_true.mp hskipped _ List.mem_cons_self) (by decide)
  simp only [parse?, String.toList_ofList, hread]

end Json

/-! ## What is answered -/

namespace Protocol

/-- Whether a message is passed over. -/
def passesOver (p : Protocol) (message : String) : Bool := isBlankText (p.delivered message)

/-- The request that a message denotes, if it denotes one. -/
def request? (p : Protocol) (message : String) : Option Request :=
  Request.ofText? (String.ofList (p.delivered message))

/-- Whether a message is a request to exit. -/
def asksToExit (p : Protocol) (message : String) : Bool :=
  (p.request? message).any (·.command == "exit")

/-- The messages of a session: up to the first one that asks to exit, this one included. -/
def handled (p : Protocol) (messages : List String) : List String :=
  messages.take (messages.findIdx p.asksToExit + 1)

/-- The texts that are answered. -/
def answered (p : Protocol) (messages : List String) : List String :=
  (messages.filter (!p.passesOver ·)).map fun message => String.ofList (p.delivered message)

lemma handled_cons (p : Protocol) (message : String) (messages : List String) :
    p.handled (message :: messages) =
      message :: if p.asksToExit message then [] else p.handled messages := by
  cases h : p.asksToExit message <;> simp [handled, List.findIdx_cons, h]

/-- A blank message is no request. -/
lemma request?_of_passesOver {p : Protocol} {message : String} (h : p.passesOver message = true) :
    p.request? message = none := by
  rw [request?, Request.ofText?, Json.parse?_of_isBlankText h]
  rfl

lemma asksToExit_of_passesOver {p : Protocol} {message : String}
    (h : p.passesOver message = true) : p.asksToExit message = false := by
  rw [asksToExit, request?_of_passesOver h]
  rfl

end Protocol

/-! ## What is written -/

/-- A JSON value that says what a response is: its number, the command and the number of its
request, and either that the request succeeded, with the body if there is one, or that it failed,
with the reason. -/
structure Response.SaidBy (r : Response) (content : Json) : Prop where
  seq : content.member? "seq" = some (.natural r.seq)
  type : content.member? "type" = some (.string "response")
  command : content.member? "command" = some (.string r.command)
  requestSeq : content.member? "request_seq" = some (.natural r.requestSeq)
  outcome : match r.outcome with
    | .ok body =>
      content.member? "success" = some (.bool true) ∧ content.member? "body" = body ∧
        content.member? "message" = none
    | .error failure =>
      content.member? "success" = some (.bool false) ∧
        content.member? "message" = some (.string failure.message) ∧
        content.member? "body" = none

/-- Whether the numbers of a response are numbers of 64 bits, and its length in bytes is one. -/
def Response.fits (r : Response) : Bool :=
  r.seq < 2 ^ 64 && r.requestSeq < 2 ^ 64 &&
    (match r.outcome with
      | .ok (some body) => body.isPlain
      | _ => true) &&
    r.toJson.render.utf8ByteSize < 2 ^ 64

/-- Some responses are what a stream conveys.  The stream holds a frame for each of them, with a
JSON text that says what it is, and nothing else.  If the responses fit, a reader gives these texts
back one by one, each denotes the value it was written for, and behind the last one the stream is
closed. -/
def Protocol.Conveys (p : Protocol) (written : List Char) (responses : List Response) : Prop :=
  ∃ contents : List Json, List.Forall₂ Response.SaidBy responses contents ∧
    written = p.stream (contents.map Json.render) ∧
    ((∀ response ∈ responses, response.fits = true) →
      let read := p.readAll ⟨written, 0⟩
      read.1.map (fun message => Json.parse? (String.ofList message.1)) = contents.map some ∧
        read.2 = .closed (byteLength written))

namespace Response

lemma saidBy_toJson (r : Response) : r.SaidBy r.toJson := by
  obtain ⟨seq, command, requestSeq, outcome⟩ := r
  refine ⟨?_, ?_, ?_, ?_, ?_⟩ <;> rcases outcome with failure | _ | body <;>
    simp [toJson, Json.member?]

variable {r : Response}

/-- What is written for a response that fits can be read back. -/
lemma isPlain_toJson (h : r.fits = true) : r.toJson.isPlain = true := by
  obtain ⟨seq, command, requestSeq, outcome⟩ := r
  simp only [fits, Bool.and_eq_true, decide_eq_true_eq] at h
  obtain ⟨⟨⟨hseq, hrequest⟩, hbody⟩, -⟩ := h
  rcases outcome with failure | _ | body <;>
    simp_all [toJson, Json.isPlain, Json.allMembersPlain]

lemma utf8ByteSize_render_lt (h : r.fits = true) : r.toJson.render.utf8ByteSize < 2 ^ 64 := by
  simp only [fits, Bool.and_eq_true, decide_eq_true_eq] at h
  exact h.2

end Response

namespace Protocol

/-- A plain value can be put on a stream. -/
lemma carries_render {p : Protocol} {v : Json} (hplain : v.isPlain = true)
    (hsize : v.render.utf8ByteSize < 2 ^ 64) : p.Carries v.render := by
  cases p with
  | tsserver => exact hsize
  | legacy =>
    rw [Carries, Json.toList_render]
    exact Json.linefeed_notMem_chars v hplain

/-- A plain value is read back from what is delivered of it. -/
lemma parse?_delivered (p : Protocol) {v : Json} (hplain : v.isPlain = true) :
    Json.parse? (String.ofList (p.delivered v.render)) = some v := by
  cases p with
  | tsserver => simpa [delivered] using Json.parse?_render hplain (.inl rfl)
  | legacy => exact Json.parse?_render hplain (.inr rfl)

lemma map_placed {α : Type} (p : Protocol) (f : List Char → α) (start : Nat)
    (messages : List String) :
    (p.placed start messages).map (fun message => f message.1) =
      messages.map fun message => f (p.delivered message) := by
  induction messages generalizing start with
  | nil => rfl
  | cons message messages ih => simp [placed, ih]

/-- The frames of some responses convey these responses. -/
lemma conveys_stream (p : Protocol) (responses : List Response) :
    p.Conveys (p.stream (responses.map fun r => r.toJson.render)) responses := by
  refine ⟨responses.map Response.toJson, ?_, by rw [List.map_map]; rfl, fun hfits => ?_⟩
  · exact List.forall₂_map_right_iff.mpr (List.forall₂_same.mpr fun r _ => r.saidBy_toJson)
  have hcarries : ∀ message ∈ responses.map (fun r => r.toJson.render), p.Carries message := by
    rw [List.forall_mem_map]
    exact fun r hr => carries_render (r.isPlain_toJson (hfits r hr))
      (r.utf8ByteSize_render_lt (hfits r hr))
  simp only [readAll_stream hcarries, Nat.zero_add, List.map_map,
    map_placed p (fun text => Json.parse? (String.ofList text))]
  refine ⟨List.map_congr_left fun r hr => ?_, trivial⟩
  exact p.parse?_delivered (r.isPlain_toJson (hfits r hr))

end Protocol

namespace Output

/-- What is put out behind some more responses. -/
def addAll (p : Protocol) (out : Output) (responses : List Response) : Output :=
  responses.foldl (fun out response => out.add p (some response)) out

variable {p : Protocol} {out : Output}

lemma add_eq (response : Option Response) :
    out.add p response = out.addAll p response.toList := by
  cases response <;> rfl

lemma addAll_append (responses more : List Response) :
    (out.addAll p responses).addAll p more = out.addAll p (responses ++ more) :=
  (List.foldl_append ..).symm

lemma responses_addAll (responses : List Response) :
    (out.addAll p responses).responses = responses.reverse ++ out.responses := by
  induction responses generalizing out with
  | nil => rfl
  | cons response responses ih =>
    rw [addAll, List.foldl_cons, ← addAll, ih]
    simp [add]

lemma written_addAll (responses : List Response) : (out.addAll p responses).written.toList =
    out.written.toList ++ p.stream (responses.map fun r => r.toJson.render) := by
  induction responses generalizing out with
  | nil => simp [addAll]
  | cons response responses ih =>
    rw [addAll, List.foldl_cons, ← addAll, ih]
    simp [add, Protocol.frameResponse]

end Output

namespace Server

/-- The response to a text that is a request, or is none.  In the second case only the number of
responses changes. -/
def reply (around : Surroundings) (s : Server) (text : String) : Response × Server :=
  match Request.ofText? text with
  | some request => s.handle (around.files s.answered) request
  | none => (⟨s.answered + 1, "unknown", 0, .error (.invalidRequest (around.complaint text))⟩,
      { s with answered := s.answered + 1 })

/-! ## Runs -/

variable {p : Protocol} {around : Surroundings} {s : Server} {out : Output} {message : String}

lemma receive_of_passesOver (h : p.passesOver message = true) :
    s.receive around (p.delivered message) = ⟨none, s, false⟩ := if_pos h

lemma receive_of_not_passesOver (h : p.passesOver message = false) :
    let answer := s.reply around (String.ofList (p.delivered message))
    s.receive around (p.delivered message) = ⟨answer.1, answer.2, p.asksToExit message⟩ := by
  rw [receive, if_neg (by simpa [Protocol.passesOver] using h)]
  dsimp only [Protocol.asksToExit, Protocol.request?, reply]
  cases Request.ofText? (String.ofList (p.delivered message)) <;> rfl

/-- The session ends with a message just if this message asks to exit. -/
lemma exits_receive (around : Surroundings) (s : Server) (p : Protocol) (message : String) :
    (s.receive around (p.delivered message)).exits = p.asksToExit message := by
  cases h : p.passesOver message with
  | true => rw [receive_of_passesOver h, Protocol.asksToExit_of_passesOver h]
  | false => rw [receive_of_not_passesOver h]

/-- What a message adds to the responses. -/
lemma answers_answered_cons (around : Surroundings) (s : Server) (p : Protocol)
    (message : String) (messages : List String) :
    s.answers (reply around) (p.answered (message :: messages)) =
      let reaction := s.receive around (p.delivered message)
      let others := reaction.server.answers (reply around) (p.answered messages)
      (reaction.response.toList ++ others.1, others.2) := by
  cases h : p.passesOver message with
  | true =>
    rw [receive_of_passesOver h]
    simp [Protocol.answered, h]
  | false =>
    rw [receive_of_not_passesOver h]
    simp [Protocol.answered, h, answers]

lemma runFrom_of_message {i rest : Input} {text : List Char}
    (h : p.next .message i = .message text rest) :
    s.runFrom around p out i =
      let reaction := s.receive around text
      let out := out.add p reaction.response
      if reaction.exits then out.close none rest.consumed reaction.server
      else runFrom around p out reaction.server rest := by
  rw [runFrom.eq_def]
  split <;> simp_all

lemma runFrom_of_closed {i : Input} {n : Nat} (h : p.next .message i = .closed n) :
    s.runFrom around p out i = out.close none n s := by
  rw [runFrom.eq_def]
  split <;> simp_all

/-- A run over frames, behind what was put out and read before. -/
lemma runFrom_stream {messages : List String} (h : ∀ message ∈ messages, p.Carries message)
    (out : Output) (n : Nat) :
    s.runFrom around p out ⟨p.stream messages, n⟩ =
      let answers := s.answers (reply around) (p.answered (p.handled messages))
      (out.addAll p answers.1).close none (n + byteLength (p.stream (p.handled messages)))
        answers.2 := by
  induction messages generalizing s out n with
  | nil =>
    rw [Protocol.stream_nil, runFrom_of_closed (Protocol.next_nil p n)]
    rfl
  | cons message messages ih =>
    have hnext := Protocol.next_frame (h message List.mem_cons_self) (p.stream messages) n
    rw [Protocol.stream_cons, runFrom_of_message hnext, Protocol.handled_cons,
      answers_answered_cons]
    simp only [exits_receive, Output.add_eq]
    cases hexit : p.asksToExit message with
    | true => simp [answers, Protocol.answered]
    | false =>
      simp only [Bool.false_eq_true, if_false]
      rw [ih fun m hm => h m (List.mem_cons_of_mem message hm)]
      simp [Output.addAll_append, Nat.add_assoc]

/-- **A session over frames.**  A session over the frames of some messages gives one response for
each message that is not blank, in order, up to the first one that asks to exit.  Each response is
the one that belongs to the state behind the messages before it; nothing is wrong with the framing,
and the session has read the frames up to this message and nothing behind them.  What it has written
conveys these responses to whoever reads it. -/
theorem run_stream {messages : List String} (h : ∀ message ∈ messages, p.Carries message)
    (around : Surroundings) (s : Server) :
    let session := s.run around p (p.stream messages)
    let answers := s.answers (reply around) (p.answered (p.handled messages))
    session.responses = answers.1 ∧ session.fault = none ∧
      session.consumed = byteLength (p.stream (p.handled messages)) ∧
      session.server = answers.2 ∧ p.Conveys session.written.toList answers.1 := by
  intro session answers
  have hrun : session = (Output.addAll p {} answers.1).close none
      (0 + byteLength (p.stream (p.handled messages))) answers.2 := runFrom_stream h {} 0
  rw [hrun, Nat.zero_add]
  refine ⟨?_, rfl, rfl, rfl, ?_⟩
  · simp [Output.close, Output.responses_addAll]
  · simpa [Output.close, Output.written_addAll] using p.conveys_stream answers.1

/-- A text that is no request is answered, a blank one is not, and nothing is read behind a request
to exit.  Both responses arrive. -/
theorem run_stream_exit :
    (∀ message ∈ ["x", "", "[7, \"request\", \"exit\"]", "x"], Protocol.legacy.Carries message) ∧
      let session := Server.run ⟨fun _ file => .error file, fun _ => "expected value"⟩ .legacy {}
        (Protocol.legacy.stream ["x", "", "[7, \"request\", \"exit\"]", "x"])
      session.responses.map (fun r => (r.seq, r.command, r.requestSeq)) =
          [(1, "unknown", 0), (2, "exit", 7)] ∧
        session.fault = none ∧ session.consumed = 26 ∧
        ∃ contents : List Json, List.Forall₂ Response.SaidBy session.responses contents ∧
          (Protocol.legacy.readAll ⟨session.written.toList, 0⟩).1.map
            (fun message => Json.parse? (String.ofList message.1)) = contents.map some := by
  have h : ∀ message ∈ ["x", "", "[7, \"request\", \"exit\"]", "x"],
      Protocol.legacy.Carries message := by decide
  obtain ⟨hresponses, hfault, hconsumed, -, contents, hsaid, -, hread⟩ :=
    run_stream h ⟨fun _ file => .error file, fun _ => "expected value"⟩ {}
  refine ⟨h, ?_, hfault, hconsumed.trans (by decide +kernel), contents, ?_, ?_⟩
  · rw [hresponses]
    decide +kernel
  · rwa [hresponses]
  · exact (hread (by decide +kernel)).1

end Server

end InlineValues

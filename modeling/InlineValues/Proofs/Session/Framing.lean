import InlineValues.Proofs.Text.Digits
import InlineValues.Session.Framing

/-!
# Frames that are read back

What `Protocol.frame` writes for a message, `Protocol.next` reads as this message, whatever follows
on the stream, and it reads no byte of what follows (`next_frame`).  So a reader that is called
again and again gives the messages of a stream one by one, and then says that the stream is closed
(`readAll_stream`).

The length of a message stands in the header in decimal digits, which `readCount?` reads back
(`readCount?_toDigits`).  Nothing else in the header depends on the message.
-/

namespace InlineValues

/-! ## White space at the ends -/

/-- White space in front of a text and behind it is trimmed, and nothing else. -/
lemma trimmed_eq {lead core trail : List Char} (hlead : isBlankText lead = true)
    (htrail : isBlankText trail = true)
    (hends : ∀ c, c ∈ core.head? ∨ c ∈ core.getLast? → isWhiteSpace c = false) :
    trimmed (lead ++ core ++ trail) = core := by
  rw [isBlankText, List.all_eq_true] at hlead htrail
  have hfront : (lead ++ (core ++ trail)).dropWhile isWhiteSpace =
      (core ++ trail).dropWhile isWhiteSpace := List.dropWhile_append_of_pos hlead
  rw [trimmed, List.append_assoc, hfront]
  cases core with
  | nil =>
    have hnil : (trail ++ []).dropWhile isWhiteSpace = [] := List.dropWhile_append_of_pos htrail
    rw [List.nil_append, ← List.append_nil trail, hnil]
    rfl
  | cons c core =>
    have hfirst : isWhiteSpace c = false := hends c (.inl rfl)
    have hlast : ∀ d ∈ (c :: core).reverse.head?, isWhiteSpace d = false := fun d hd =>
      hends d (.inr (by rwa [List.head?_reverse] at hd))
    rw [List.cons_append, List.dropWhile_cons_of_neg (by simp [hfirst]), trimmedEnd,
      ← List.cons_append, List.reverse_append, List.dropWhile_append_of_pos (by simpa using htrail)]
    cases hreverse : (c :: core).reverse with
    | nil => simp at hreverse
    | cons d ds =>
      rw [hreverse] at hlast
      rw [List.dropWhile_cons_of_neg (by simp [hlast d rfl]), ← hreverse, List.reverse_reverse]

lemma textBehind?_append (start : String) (cs : List Char) :
    textBehind? start (start.toList ++ cs) = some cs := by
  rw [textBehind?, if_pos (by simp), List.drop_left]

/-! ## Lines -/

namespace Input

variable {front rest : List Char} {n : Nat}

lemma line_eq (h : '\n' ∉ front) : line ⟨front ++ '\n' :: rest, n⟩ = front ++ ['\n'] := by
  have hfront : ∀ c ∈ front, (c != '\n') = true := fun c hc =>
    bne_iff_ne.mpr fun heq => h (heq ▸ hc)
  simp [line, List.takeWhile_append_of_pos hfront, List.dropWhile_append_of_pos hfront]

lemma afterLine_eq (h : '\n' ∉ front) : afterLine ⟨front ++ '\n' :: rest, n⟩ =
    ⟨rest, n + byteLength (front ++ ['\n'])⟩ := by
  have hfront : ∀ c ∈ front, (c != '\n') = true := fun c hc =>
    bne_iff_ne.mpr fun heq => h (heq ▸ hc)
  rw [afterLine, line_eq h]
  simp [List.dropWhile_append_of_pos hfront]

/-- A body that is there is read whole, and nothing behind it. -/
lemma readBody_append (body rest : List Char) (n : Nat) :
    readBody ⟨body ++ rest, n⟩ (byteLength body) = .message body ⟨rest, n + byteLength body⟩ := by
  rw [readBody, dropBytes?_append, takeBytes_append]

end Input

/-- The size of a string is the length in bytes of its characters. -/
lemma utf8ByteSize_eq (s : String) : s.utf8ByteSize = byteLength s.toList := by
  have hchars (cs : List Char) : (String.ofList cs).utf8ByteSize = byteLength cs := by
    induction cs with
    | nil => rfl
    | cons c cs ih =>
      rw [String.ofList_cons, String.utf8ByteSize_append, ih]
      simp
  rw [← hchars, String.ofList_toList]

/-! ## One message -/

namespace Protocol

/-- The messages that can be put on a stream: with a header, those whose length a reader can count
(no text in memory is longer), and as a line, those that are one line. -/
def Carries : Protocol → String → Prop
  | tsserver, message => message.utf8ByteSize < 2 ^ 64
  | legacy, message => '\n' ∉ message.toList

instance (p : Protocol) (message : String) : Decidable (p.Carries message) :=
  match p with
  | tsserver => inferInstanceAs (Decidable (_ < _))
  | legacy => inferInstanceAs (Decidable (¬ _))

/-- What a reader gives for a message.  A line comes with the line feed that ends it. -/
def delivered : Protocol → String → List Char
  | tsserver, message => message.toList
  | legacy, message => message.toList ++ ['\n']

section

variable {p : Protocol} {awaited awaited' : AwaitedLine} {i : Input} {length : Nat}
  {text : List Char}

lemma next_of_line (h : p.afterLine awaited i.line = .line awaited')
    (hline : i.line.isEmpty = false) : p.next awaited i = p.next awaited' i.afterLine := by
  rw [next, h]
  exact dif_pos hline

lemma next_of_body (h : p.afterLine awaited i.line = .body length) :
    p.next awaited i = i.afterLine.readBody length := by
  rw [next, h]

lemma next_of_message (h : p.afterLine awaited i.line = .message text) :
    p.next awaited i = .message text i.afterLine := by
  rw [next, h]

lemma next_of_closed (h : p.afterLine awaited i.line = .closed) :
    p.next awaited i = .closed i.afterLine.consumed := by
  rw [next, h]

end

lemma frame_legacy (message : String) : legacy.frame message = message ++ "\n" := rfl

lemma frame_tsserver (message : String) : tsserver.frame message =
    "Content-Length: " ++ Nat.repr message.utf8ByteSize ++ "\r\n\r\n" ++ message := rfl

/-- A line is read back with the line feed that ends it. -/
lemma next_line {message : String} (h : '\n' ∉ message.toList) (rest : List Char) (n : Nat) :
    next legacy .message ⟨(legacy.frame message).toList ++ rest, n⟩ =
      .message (message.toList ++ ['\n']) ⟨rest, n + byteLength (legacy.frame message).toList⟩ := by
  have hframe : (legacy.frame message).toList = message.toList ++ ['\n'] := by
    rw [frame_legacy]
    simp
  rw [hframe, List.append_assoc, List.singleton_append, ← Input.afterLine_eq h]
  refine next_of_message ?_
  rw [Input.line_eq h, afterLine, if_neg (by simp)]

/-- The line that announces a message of some length, up to its line feed. -/
def announcement (length : Nat) : List Char :=
  "Content-Length:".toList ++ (' ' :: Nat.toDigits 10 length ++ ['\r'])

lemma announcement_eq (length : Nat) : announcement length =
    "Content-Length:".toList ++ (' ' :: Nat.toDigits 10 length ++ ['\r']) := rfl

lemma toList_frame (message : String) : (tsserver.frame message).toList =
    announcement message.utf8ByteSize ++ '\n' :: (['\r'] ++ '\n' :: message.toList) := by
  rw [frame_tsserver, announcement_eq]
  simp

lemma linefeed_notMem_announcement (length : Nat) : '\n' ∉ announcement length := by
  have hheader : '\n' ∉ "Content-Length:".toList := by decide
  have hdigits : '\n' ∉ Nat.toDigits 10 length := fun hmem =>
    absurd (Nat.isDigit_of_mem_toDigits (by decide) (by decide) hmem) (by decide)
  simp only [announcement_eq, List.mem_append, List.mem_cons, hheader, hdigits, List.not_mem_nil]
  decide

lemma trimmed_announcement (length : Nat) : trimmed (announcement length ++ ['\n']) =
    "Content-Length:".toList ++ ' ' :: Nat.toDigits 10 length := by
  have hline : announcement length ++ ['\n'] =
      [] ++ ("Content-Length:".toList ++ ' ' :: Nat.toDigits 10 length) ++ ['\r', '\n'] := by
    simp only [announcement_eq, List.nil_append, List.append_assoc, List.cons_append]
  rw [hline]
  refine trimmed_eq rfl rfl fun c hc => ?_
  rcases hc with hc | hc
  · have hheader : "Content-Length:".toList.head? = some 'C' := by decide
    rw [List.head?_append, hheader] at hc
    cases hc
    decide
  · rw [List.getLast?_append, ← List.singleton_append, List.getLast?_append] at hc
    cases hlast : (Nat.toDigits 10 length).getLast? with
    | none => exact absurd (List.getLast?_eq_none_iff.mp hlast) Nat.toDigits_ne_nil
    | some d =>
      rw [hlast] at hc
      cases hc
      exact isWhiteSpace_of_mem_toDigits (List.mem_of_getLast? hlast)

/-- The first line of a frame says how long the message is. -/
lemma afterLine_announcement {length : Nat} (h : length < 2 ^ 64) :
    tsserver.afterLine .message (announcement length ++ ['\n']) = .line (.header length) := by
  have hblank : isBlankText (announcement length ++ ['\n']) = false := by
    have hheader : "Content-Length:".toList.all isWhiteSpace = false := by decide
    rw [announcement_eq, isBlankText, List.append_assoc, List.all_append, hheader, Bool.false_and]
  have hnumber : trimmed ([' '] ++ Nat.toDigits 10 length ++ []) = Nat.toDigits 10 length :=
    trimmed_eq rfl rfl fun c hc => isWhiteSpace_of_mem_toDigits
      (hc.elim List.mem_of_mem_head? List.mem_of_mem_getLast?)
  rw [List.append_nil, List.singleton_append] at hnumber
  rw [afterLine, if_neg (by simp), hblank, if_neg Bool.false_ne_true, afterHeader,
    trimmed_announcement, textBehind?_append]
  simp only [hnumber, readCount?_toDigits h]

/-- A message is read back from behind its header, whatever it is. -/
lemma next_framed {message : String} (h : message.utf8ByteSize < 2 ^ 64) (rest : List Char)
    (n : Nat) : next tsserver .message ⟨(tsserver.frame message).toList ++ rest, n⟩ =
      .message message.toList ⟨rest, n + byteLength (tsserver.frame message).toList⟩ := by
  have hfeed := linefeed_notMem_announcement message.utf8ByteSize
  have hreturn : '\n' ∉ ['\r'] := by decide
  have hframe : (tsserver.frame message).toList ++ rest = announcement message.utf8ByteSize ++
      '\n' :: (['\r'] ++ '\n' :: (message.toList ++ rest)) := by
    rw [toList_frame]
    simp
  have hlength (n : Nat) : n + byteLength (announcement message.utf8ByteSize ++ ['\n']) +
      byteLength (['\r'] ++ ['\n']) + byteLength message.toList =
      n + byteLength (tsserver.frame message).toList := by
    rw [toList_frame]
    simp only [byteLength_append, byteLength_cons, byteLength_nil]
    omega
  have hblank : tsserver.afterLine (.header message.utf8ByteSize) (['\r'] ++ ['\n']) =
      .body (byteLength message.toList) := by
    rw [← utf8ByteSize_eq]
    rfl
  rw [hframe, next_of_line (by rw [Input.line_eq hfeed]; exact afterLine_announcement h)
    (by rw [Input.line_eq hfeed]; simp), Input.afterLine_eq hfeed,
    next_of_body (by rw [Input.line_eq hreturn]; exact hblank), Input.afterLine_eq hreturn,
    Input.readBody_append, hlength]

/-- A message is read back from its frame, whatever follows, and nothing of what follows is read. -/
theorem next_frame {p : Protocol} {message : String} (h : p.Carries message) (rest : List Char)
    (n : Nat) : p.next .message ⟨(p.frame message).toList ++ rest, n⟩ =
      .message (p.delivered message) ⟨rest, n + byteLength (p.frame message).toList⟩ :=
  match p, h with
  | legacy, h => next_line h rest n
  | tsserver, h => next_framed h rest n

/-- At the end of a stream there is no message. -/
lemma next_nil (p : Protocol) (n : Nat) : p.next .message ⟨[], n⟩ = .closed n := by
  cases p <;> exact next_of_closed rfl

/-! ## Streams of messages -/

/-- The stream that holds some messages. -/
def stream (p : Protocol) (messages : List String) : List Char :=
  messages.flatMap fun message => (p.frame message).toList

@[simp] lemma stream_nil (p : Protocol) : p.stream [] = [] := rfl

@[simp] lemma stream_cons (p : Protocol) (message : String) (messages : List String) :
    p.stream (message :: messages) = (p.frame message).toList ++ p.stream messages := rfl

/-- Read a stream message by message for as long as there is one.  The result has every message
with the number of bytes that were read when it was given, and what came instead of a further
one. -/
def readAll (p : Protocol) (i : Input) : List (List Char × Nat) × Frame :=
  match _h : p.next .message i with
  | .message text rest => ((text, rest.consumed) :: (p.readAll rest).1, (p.readAll rest).2)
  | .closed consumed => ([], .closed consumed)
  | .malformed fault consumed => ([], .malformed fault consumed)
termination_by i.rest.length
decreasing_by all_goals exact length_lt_of_next _h

/-- What a reader gives for some messages, each with the offset where its frame ends, if the first
frame begins at `start`. -/
def placed (p : Protocol) : Nat → List String → List (List Char × Nat)
  | _, [] => []
  | start, message :: messages =>
    let stop := start + byteLength (p.frame message).toList
    (p.delivered message, stop) :: p.placed stop messages

lemma readAll_of_closed {p : Protocol} {i : Input} {n : Nat}
    (h : p.next .message i = .closed n) : p.readAll i = ([], .closed n) := by
  rw [readAll.eq_def]
  split <;> simp_all

lemma readAll_of_message {p : Protocol} {i rest : Input} {text : List Char}
    (h : p.next .message i = .message text rest) :
    p.readAll i = ((text, rest.consumed) :: (p.readAll rest).1, (p.readAll rest).2) := by
  rw [readAll.eq_def]
  split <;> simp_all

/-- **Reading what was written.**  Called again and again on the frames of some messages, the
reader gives these messages one by one, each call reads one frame and not a byte more, and behind
the last one the stream is closed. -/
theorem readAll_stream {p : Protocol} {messages : List String}
    (h : ∀ message ∈ messages, p.Carries message) (start : Nat) :
    p.readAll ⟨p.stream messages, start⟩ =
      (p.placed start messages, .closed (start + byteLength (p.stream messages))) := by
  induction messages generalizing start with
  | nil => exact readAll_of_closed (next_nil p start)
  | cons message messages ih =>
    have hfirst := next_frame (h message List.mem_cons_self) (p.stream messages) start
    have hothers := ih (fun m hm => h m (List.mem_cons_of_mem message hm))
      (start + byteLength (p.frame message).toList)
    rw [stream_cons, readAll_of_message hfirst, hothers, byteLength_append, ← Nat.add_assoc]
    rfl

/-- Messages that are empty, end a line or look like a header are told apart by their lengths. -/
theorem readAll_stream_lookalikes :
    (∀ message ∈ ["", "\n", "Content-Length: 3\r\n\r\nabc"], tsserver.Carries message) ∧
      tsserver.readAll ⟨tsserver.stream ["", "\n", "Content-Length: 3\r\n\r\nabc"], 0⟩ =
        ([([], 21), (['\n'], 43), ("Content-Length: 3\r\n\r\nabc".toList, 89)], .closed 89) :=
  have h : ∀ message ∈ ["", "\n", "Content-Length: 3\r\n\r\nabc"], tsserver.Carries message := by
    decide
  ⟨h, (readAll_stream h 0).trans (by decide)⟩

end Protocol

end InlineValues

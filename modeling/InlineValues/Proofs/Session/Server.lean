import InlineValues.Proofs.Document.Edit
import Mathlib.Logic.Function.Basic

/-!
# The server refines a map of texts

What a server holds can be told by the texts of the open files alone, a map from names to texts
(`Texts`).  `Texts.after` says what a request makes of this map; trees, limits and numbers play no
part in it.  It reads the members of the arguments by itself, with the defaults of those that are
missing (`Request.changed`), and so owes nothing to the commands that the server makes of a request.

The documents of a server are those of the map, each made of its text anew (`Texts.HeldBy`), and
every request preserves this (`Server.held_carriedOut`).  So it holds behind any list of requests
(`Server.held_answers`), and what a document answers never depends on how its text came about
(`Server.refines_texts`).
-/

namespace InlineValues

/-! ## What a request says -/

namespace Request

/-- The text under a name in the arguments of a request.  Anything but a string counts as
missing. -/
def textArgument? (r : Request) (name : String) : Option String :=
  match r.arguments.member? name with
  | some (.string text) => some text
  | _ => none

/-- The number under a name in the arguments of a request.  Anything but a natural number of 32 bits
counts as missing. -/
def numberArgument? (r : Request) (name : String) : Option Nat :=
  match r.arguments.member? name with
  | some (.natural n) => if n < 2 ^ 32 then some n else none
  | _ => none

/-- What a request to change a text makes of it.  If `fileContent` is there, this is the new text.
Otherwise `insertString` takes the place of what stands between `line`, `offset` and `endLine`,
`endOffset`.  The start is the start of the text by default, the end is the start by default, in
each of its two parts, and nothing is inserted by default.  An end in front of the start counts as
the start. -/
def changed (r : Request) (text : List Char) : List Char :=
  match r.textArgument? "fileContent" with
  | some content => content.toList
  | none =>
    let line := (r.numberArgument? "line").getD 1
    let column := (r.numberArgument? "offset").getD 1
    let endLine := (r.numberArgument? "endLine").getD line
    let endColumn := (r.numberArgument? "endOffset").getD column
    let start := (Location.lineColumn line column).charsBefore text
    let stop := (Location.lineColumn endLine endColumn).charsBefore text
    text.take start ++ ((r.textArgument? "insertString").getD "").toList ++
      text.drop (max start stop)

/-- The place that a request names, with `line` and `offset` or else with `position`. -/
def namedPlace? (r : Request) : Option Location :=
  match r.numberArgument? "line", r.numberArgument? "offset" with
  | some line, some column => some (.lineColumn line column)
  | _, _ => (r.numberArgument? "position").map .utf16

/-- The part of the text that a request names, with `start` and `length`. -/
def namedPart? (r : Request) : Option Span :=
  match r.numberArgument? "start", r.numberArgument? "length" with
  | some start, some length => some ⟨start, length⟩
  | _, _ => none

/-! The server reads the same arguments. -/

lemma text?_eq (r : Request) (name : String) : r.text? name = r.textArgument? name := by
  rw [text?, textArgument?]
  rcases r.arguments.member? name with _ | value
  · rfl
  · cases value <;> rfl

lemma offset?_eq (r : Request) (name : String) : r.offset? name = r.numberArgument? name := by
  rw [offset?, numberArgument?]
  rcases r.arguments.member? name with _ | value
  · rfl
  · cases value with
    | natural n =>
      have hbound : n ≤ maxOffset ↔ n < 2 ^ 32 := Nat.lt_succ_iff.symm
      simp [Json.asNatural?, Option.filter, hbound]
    | null | bool | number | string | array | object | unrepresentable => rfl

lemma applied_edit (r : Request) (text : List Char) : r.edit.applied text = r.changed text := by
  rw [edit, changed, text?_eq]
  cases r.textArgument? "fileContent" with
  | some content => rfl
  | none =>
    simp only [offset?_eq, text?_eq]
    rfl

lemma place?_eq (r : Request) : r.place? = r.namedPlace? := by
  simp only [place?, namedPlace?, offset?_eq]
  cases r.numberArgument? "line" <;> cases r.numberArgument? "offset" <;>
    cases r.numberArgument? "position" <;> rfl

lemma visible?_eq (r : Request) : r.visible? = r.namedPart? := by
  simp only [visible?, namedPart?, offset?_eq]
  cases r.numberArgument? "start" <;> cases r.numberArgument? "length" <;> rfl

end Request

/-! ## The map -/

/-- The texts of the files that are open. -/
abbrev Texts := String → Option (List Char)

namespace Texts

/-- The texts behind a request, where `files` says what can be read.  Opening a file binds it to
the text of the request or else to what is read, closing a file unbinds it, and a change replaces or
splices the text of a file that is bound.  Nothing else changes a binding. -/
def after (texts : Texts) (files : Files) (r : Request) : Texts :=
  match r.command, r.textArgument? "file" with
  | "open", some file =>
    match r.textArgument? "fileContent", files file with
    | some content, _ | none, .ok content => Function.update texts file (some content.toList)
    | none, .error _ => texts
  | "close", some file => Function.update texts file none
  | "change", some file => Function.update texts file ((texts file).map r.changed)
  | _, _ => texts

/-- The documents are those of the texts, each as if it had just been opened. -/
def HeldBy (texts : Texts) (documents : Documents) : Prop :=
  ∀ file, documents[file]? = (texts file).map fun text => .ofSource file (.ofChars text)

end Texts

/-! ## Requests -/

/-- What a request says when it asks for a command. -/
def Command.AskedBy (r : Request) : Command → Prop
  | openFile file content =>
    r.command = "open" ∧ r.textArgument? "file" = some file ∧
      r.textArgument? "fileContent" = content
  | closeFile file => r.command = "close" ∧ r.textArgument? "file" = file
  | change file edit =>
    r.command = "change" ∧ r.textArgument? "file" = some file ∧ r.edit = edit
  | provideInlineValues file place visible =>
    r.command = "typescript/extra/provideInlineValues" ∧ r.textArgument? "file" = some file ∧
      r.namedPlace? = some place ∧ r.namedPart? = visible
  | exit => r.command = "exit"

namespace Request

variable {r : Request} {c : Command}

lemma file_eq (r : Request) (name : String) :
    r.file name = (r.textArgument? "file").elim (.error (.missingFile name)) .ok := by
  rw [Request.file, text?_eq]
  cases r.textArgument? "file" <;> rfl

/-- A command that needs a file comes from a request that names one. -/
lemma exists_file {name : String} {command : String → Except Failure Command}
    (h : r.file name >>= command = .ok c) :
    ∃ file, r.textArgument? "file" = some file ∧ command file = .ok c := by
  rw [file_eq] at h
  cases hfile : r.textArgument? "file" with
  | none =>
    rw [hfile] at h
    cases h
  | some file =>
    rw [hfile] at h
    exact ⟨file, rfl, h⟩

/-- A request says everything that its command needs. -/
lemma askedBy_of_command? (h : r.command? = .ok c) : c.AskedBy r := by
  unfold command? at h
  split at h
  case h_1 hcommand =>
    obtain ⟨file, hfile, hopen⟩ := exists_file h
    cases hopen
    exact ⟨hcommand, hfile, (text?_eq r "fileContent").symm⟩
  case h_2 hcommand =>
    cases h
    exact ⟨hcommand, (text?_eq r "file").symm⟩
  case h_3 hcommand =>
    obtain ⟨file, hfile, hchange⟩ := exists_file h
    cases hchange
    exact ⟨hcommand, hfile, rfl⟩
  case h_4 hcommand =>
    obtain ⟨file, hfile, hvalues⟩ := exists_file h
    rw [place?_eq, visible?_eq] at hvalues
    cases hplace : r.namedPlace? with
    | none =>
      rw [hplace] at hvalues
      cases hvalues
    | some place =>
      rw [hplace] at hvalues
      cases hvalues
      exact ⟨hcommand, hfile, hplace, rfl⟩
  case h_5 hcommand =>
    cases h
    exact hcommand
  case h_6 => cases h

/-- A request that says everything that a command needs has this command. -/
lemma command?_of_askedBy (h : c.AskedBy r) : r.command? = .ok c := by
  cases c with
  | openFile file content =>
    obtain ⟨hcommand, hfile, rfl⟩ := h
    rw [command?, hcommand, file_eq r "open", hfile, text?_eq]
    rfl
  | closeFile file =>
    obtain ⟨hcommand, rfl⟩ := h
    rw [command?, hcommand, ← text?_eq]
    rfl
  | change file edit =>
    obtain ⟨hcommand, hfile, rfl⟩ := h
    rw [command?, hcommand, file_eq r "change", hfile]
    rfl
  | provideInlineValues file place visible =>
    obtain ⟨hcommand, hfile, hplace, rfl⟩ := h
    rw [command?, hcommand, file_eq r "provideInlineValues", hfile, place?_eq, visible?_eq, hplace]
    rfl
  | exit =>
    have hcommand : r.command = "exit" := h
    rw [command?, hcommand]
    rfl

end Request

namespace Texts

variable {texts : Texts} {files : Files} {r : Request}

/-- What a request with a command makes of the texts. -/
def afterCommand (texts : Texts) (files : Files) : Command → Texts
  | .openFile file content =>
    match content.elim (files file) .ok with
    | .ok content => Function.update texts file (some content.toList)
    | .error _ => texts
  | .closeFile (some file) => Function.update texts file none
  | .change file edit => Function.update texts file ((texts file).map edit.applied)
  | _ => texts

lemma after_of_command? {c : Command} (h : r.command? = .ok c) :
    texts.after files r = texts.afterCommand files c := by
  have hasked := Request.askedBy_of_command? h
  cases c with
  | openFile file content =>
    obtain ⟨hcommand, hfile, rfl⟩ := hasked
    rw [after, hcommand, hfile, afterCommand]
    change (match r.textArgument? "fileContent", files file with
      | some content, _ | none, .ok content => Function.update texts file (some content.toList)
      | none, .error _ => texts) = _
    cases r.textArgument? "fileContent" <;> cases files file <;> rfl
  | closeFile file =>
    obtain ⟨hcommand, rfl⟩ := hasked
    rw [after, hcommand]
    cases r.textArgument? "file" <;> rfl
  | change file edit =>
    obtain ⟨hcommand, hfile, rfl⟩ := hasked
    have hedit : r.changed = r.edit.applied := funext fun text => (r.applied_edit text).symm
    rw [after, hcommand, hfile, hedit]
    rfl
  | provideInlineValues file place visible =>
    rw [after, hasked.1]
    rfl
  | exit =>
    have hcommand : r.command = "exit" := hasked
    rw [after, hcommand]
    rfl

/-- A request without a command changes no text. -/
lemma after_of_failure {failure : Failure} (h : r.command? = .error failure) :
    texts.after files r = texts := by
  have hnone (c : Command) : ¬ c.AskedBy r := fun hasked => by
    rw [Request.command?_of_askedBy hasked] at h
    cases h
  rw [after]
  split
  case h_1 file hcommand hfile => exact absurd ⟨hcommand, hfile, rfl⟩ (hnone (.openFile file _))
  case h_2 file hcommand hfile => exact absurd ⟨hcommand, hfile⟩ (hnone (.closeFile (some file)))
  case h_3 file hcommand hfile => exact absurd ⟨hcommand, hfile, rfl⟩ (hnone (.change file _))
  case h_4 => rfl

end Texts

/-! ## Documents -/

namespace Texts.HeldBy

variable {texts : Texts} {documents : Documents} {s : Server} {files : Files}

lemma empty : HeldBy (fun _ => none) {} := fun _ => by simp

lemma insert (h : texts.HeldBy documents) (file : String) (text : List Char) :
    HeldBy (Function.update texts file (some text))
      (documents.insert file (.ofSource file (.ofChars text))) := fun other => by
  rw [Std.HashMap.getElem?_insert]
  by_cases hfile : file = other
  · subst hfile
    simp
  · rw [if_neg (by simpa using hfile), Function.update_of_ne (Ne.symm hfile), h other]

lemma erase (h : texts.HeldBy documents) (file : String) :
    HeldBy (Function.update texts file none) (documents.erase file) := fun other => by
  rw [Std.HashMap.getElem?_erase]
  by_cases hfile : file = other
  · subst hfile
    simp
  · rw [if_neg (by simpa using hfile), Function.update_of_ne (Ne.symm hfile), h other]

lemma document? (h : texts.HeldBy s.documents) (file : String) :
    s.document? file = (texts file).map fun text => .ofSource file (.ofChars text) :=
  h file

/-- The text of a file that is open. -/
lemma chars_document? (h : texts.HeldBy s.documents) (file : String) :
    (s.document? file).map (·.source.chars) = texts file := by
  rw [h.document?, Option.map_map]
  cases texts file <;> simp

/-- A command does to the documents what it does to the texts. -/
lemma perform (h : texts.HeldBy s.documents) (files : Files) (c : Command) :
    (texts.afterCommand files c).HeldBy (s.perform files c).2 := by
  cases c with
  | openFile file content =>
    rw [Texts.afterCommand, Server.perform]
    cases content.elim (files file) .ok with
    | ok content => exact h.insert file content.toList
    | error reason => exact h
  | closeFile file =>
    cases file with
    | none => exact h
    | some file => exact h.erase file
  | change file edit =>
    rw [Texts.afterCommand, Server.perform, h.document? file]
    cases htext : texts file with
    | none =>
      have hsame : Function.update texts file none = texts :=
        htext ▸ Function.update_eq_self file texts
      rw [Option.map_none, hsame]
      exact h
    | some text =>
      simp only [Option.map_some, applyEdit_ofSource]
      exact h.insert file (edit.applied text)
  | provideInlineValues file place visible => exact h
  | exit => exact h

end Texts.HeldBy

/-! ## Responses -/

namespace Server

variable {texts : Texts} {files : Files} {s : Server} {r : Request} {c : Command}

/-- What comes of a request: what is answered, and the documents behind it. -/
def carriedOut (files : Files) (s : Server) (r : Request) :
    Except Failure (Option Json) × Documents :=
  match r.command? with
  | .ok command => s.perform files command
  | .error failure => (.error failure, s.documents)

lemma handle_eq (files : Files) (s : Server) (r : Request) : s.handle files r =
    (⟨s.answered + 1, r.command, r.seq, (s.carriedOut files r).1⟩,
      { s with documents := (s.carriedOut files r).2, answered := s.answered + 1 }) := by
  rw [handle, carriedOut]
  cases r.command? <;> rfl

/-- A request that fails changes no document. -/
lemma documents_carriedOut {failure : Failure} (h : (s.carriedOut files r).1 = .error failure) :
    (s.carriedOut files r).2 = s.documents := by
  rw [carriedOut] at h ⊢
  cases hcommand : r.command? with
  | error failure => rfl
  | ok command =>
    rw [hcommand] at h
    cases command with
    | openFile file content =>
      simp only [perform] at h ⊢
      cases htext : content.elim (files file) .ok with
      | ok content => rw [htext] at h; cases h
      | error reason => rfl
    | closeFile file => cases file <;> cases h
    | change file edit =>
      simp only [perform] at h
      split at h <;> cases h
    | provideInlineValues file place visible => rfl
    | exit => rfl

/-- A request does to the documents what it does to the texts. -/
theorem held_carriedOut (h : texts.HeldBy s.documents) (files : Files) (r : Request) :
    (texts.after files r).HeldBy (s.carriedOut files r).2 := by
  rw [carriedOut]
  cases hcommand : r.command? with
  | ok command =>
    rw [Texts.after_of_command? hcommand]
    exact h.perform files command
  | error failure =>
    rw [Texts.after_of_failure hcommand]
    exact h

/-! ## Runs -/

/-- The responses to a list, in order, each given in the state that the one before it leaves, and
the state behind them. -/
def answers {α : Type} (answer : Server → α → Response × Server) (s : Server) :
    List α → List Response × Server
  | [] => ([], s)
  | a :: as =>
    let (response, behind) := answer s a
    let (responses, last) := answers answer behind as
    (response :: responses, last)

/-- Answer a request that comes with what the files hold at this time. -/
def handleAt (s : Server) (turn : Files × Request) : Response × Server := s.handle turn.1 turn.2

lemma handleAt_eq (s : Server) (turn : Files × Request) : handleAt s turn =
    (⟨s.answered + 1, turn.2.command, turn.2.seq, (s.carriedOut turn.1 turn.2).1⟩,
      { s with documents := (s.carriedOut turn.1 turn.2).2, answered := s.answered + 1 }) :=
  handle_eq turn.1 s turn.2

variable (turns : List (Files × Request))

/-- The documents behind a list of requests are those of the texts behind them. -/
theorem held_answers (h : texts.HeldBy s.documents) :
    (turns.foldl (fun texts turn => texts.after turn.1 turn.2) texts).HeldBy
      (answers handleAt s turns).2.documents := by
  induction turns generalizing s texts with
  | nil => exact h
  | cons turn turns ih =>
    have hfirst : (texts.after turn.1 turn.2).HeldBy (handleAt s turn).2.documents := by
      rw [handleAt_eq]
      exact held_carriedOut h turn.1 turn.2
    exact ih hfirst

/-- The responses are numbered, and each one names its request. -/
lemma numbers_answers (s : Server) :
    (answers handleAt s turns).1.map (fun response => (response.seq, response.requestSeq)) =
      (List.range' (s.answered + 1) turns.length).zip (turns.map (·.2.seq)) := by
  induction turns generalizing s with
  | nil => rfl
  | cons turn turns ih =>
    have hothers := ih (handleAt s turn).2
    rw [handleAt_eq] at hothers
    rw [List.length_cons, List.range'_succ, List.map_cons, List.zip_cons_cons, ← hothers]
    simp only [answers, handleAt_eq, List.map_cons]

lemma limits_answers (s : Server) : (answers handleAt s turns).2.limits = s.limits := by
  induction turns generalizing s with
  | nil => rfl
  | cons turn turns ih =>
    have hfirst : (handleAt s turn).2.limits = s.limits := by rw [handleAt_eq]
    exact (ih (handleAt s turn).2).trans hfirst

/-- The values of a file that is open are those of a document that was just made of its text. -/
lemma outcome_provideInlineValues {file : String} {text : List Char} {place : Location}
    (h : texts.HeldBy s.documents) (files : Files)
    (hcommand : r.command = "typescript/extra/provideInlineValues")
    (hfile : r.textArgument? "file" = some file) (hplace : r.namedPlace? = some place)
    (htext : texts file = some text) : (s.handle files r).1.outcome = .ok (some (.array
      (((Document.ofSource file (.ofChars text)).values s.limits place r.namedPart?).map
        InlineValue.toJson))) := by
  have hasked : Command.AskedBy r (.provideInlineValues file place r.namedPart?) :=
    ⟨hcommand, hfile, hplace, rfl⟩
  rw [handle_eq, carriedOut, Request.command?_of_askedBy hasked]
  simp only [perform, valuesOf, h.document? file, htext, Option.map_some]

/-- **The server refines a map of texts.**  Behind any list of requests to a server that starts
without documents, the open files and their texts are those of the map, the responses are numbered
from one on and each has the number of its request.  A further request that fails changes no
document, and one for the values of an open file is answered what a new document of its text
answers. -/
theorem refines_texts (limits : ScopeLimits) (turns : List (Files × Request)) :
    let session := answers handleAt { limits } turns
    let texts : Texts := turns.foldl (fun texts turn => texts.after turn.1 turn.2) fun _ => none
    (∀ file, (session.2.document? file).map (·.source.chars) = texts file) ∧
      session.1.map (fun response => (response.seq, response.requestSeq)) =
        (List.range' 1 turns.length).zip (turns.map (·.2.seq)) ∧
      ∀ files r,
        (∀ failure, (session.2.handle files r).1.outcome = .error failure →
          (session.2.handle files r).2.documents = session.2.documents) ∧
        ∀ file text place, r.command = "typescript/extra/provideInlineValues" →
          r.textArgument? "file" = some file → r.namedPlace? = some place →
          texts file = some text → (session.2.handle files r).1.outcome = .ok (some (.array
            (((Document.ofSource file (.ofChars text)).values limits place r.namedPart?).map
              InlineValue.toJson))) := by
  intro session texts
  have hheld : texts.HeldBy session.2.documents := held_answers turns .empty
  have hlimits : session.2.limits = limits := limits_answers turns { limits }
  refine ⟨hheld.chars_document?, numbers_answers turns { limits }, fun files r => ⟨?_, ?_⟩⟩
  · intro failure hfailure
    rw [handle_eq] at hfailure ⊢
    exact documents_carriedOut hfailure
  · intro file text place hcommand hfile hplace htext
    rw [← hlimits]
    exact outcome_provideInlineValues hheld files hcommand hfile hplace htext

/-- A file is opened, changed and asked for its values, and a request that no server knows is
refused. -/
theorem refines_texts_spliced :
    let files : Files := fun file => .error file
    let session := answers handleAt {}
      [(files, ⟨7, "open", .object [("file", .string "a"), ("fileContent", .string "x = 1;")]⟩),
        (files, ⟨8, "change", .object [("file", .string "a"), ("offset", .natural 5),
          ("endOffset", .natural 6), ("insertString", .string "y")]⟩)]
    (session.2.document? "a").map (·.source.chars) = some "x = y;".toList ∧
      session.1.map (fun response => (response.seq, response.requestSeq)) = [(1, 7), (2, 8)] ∧
      (session.2.handle files ⟨9, "quickinfo", .null⟩).2.documents = session.2.documents ∧
      (session.2.handle files ⟨9, "typescript/extra/provideInlineValues",
        .object [("file", .string "a"), ("position", .natural 4)]⟩).1.outcome =
        .ok (some (.array (((Document.ofSource "a" (.ofChars "x = y;".toList)).values {} (.utf16 4)
          none).map InlineValue.toJson))) := by
  intro files session
  obtain ⟨htexts, hnumbers, hnext⟩ := refines_texts {}
    [(files, ⟨7, "open", .object [("file", .string "a"), ("fileContent", .string "x = 1;")]⟩),
      (files, ⟨8, "change", .object [("file", .string "a"), ("offset", .natural 5),
        ("endOffset", .natural 6), ("insertString", .string "y")]⟩)]
  refine ⟨(htexts "a").trans (by decide +kernel), hnumbers, ?_, ?_⟩
  · exact (hnext files ⟨9, "quickinfo", .null⟩).1 (.unknownCommand "quickinfo") rfl
  · exact (hnext files ⟨9, "typescript/extra/provideInlineValues",
      .object [("file", .string "a"), ("position", .natural 4)]⟩).2 "a" "x = y;".toList (.utf16 4)
      rfl (by decide +kernel) (by decide +kernel) (by decide +kernel)

end Server

end InlineValues

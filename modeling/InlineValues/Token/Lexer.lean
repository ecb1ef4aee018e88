import InlineValues.Token.Scan
import InlineValues.Token.Trivia

/-!
# Lexers

A `Lexer` reads the tokens of a source text one after the other.  It holds the current token, the
cursor behind it, and the diagnostics of everything it has read.

The grammar decides three things the characters alone leave open.  A `>` may be the front of a
longer operator (`Lexer.rescanGreater`), a slash may open a regular expression
(`Lexer.rescanSlash`), and a closing brace may end a substitution in a template
(`Lexer.rescanTemplate`).  Each of these reads the current token once more in the other way.

To look ahead, a parser takes a `Snapshot` and comes back to it.  A snapshot counts the diagnostics
instead of holding them: coming back forgets those that were added since.
-/

namespace InlineValues

/-- A token of a source text.  Its trivia starts at `fullStart` and its own text at `start`. -/
structure Token where
  kind : TokenKind
  fullStart : Nat
  start : Nat
  value : List Char
  afterLineBreak : Bool
  unterminated : Bool
  deriving DecidableEq, Repr

/-- What a lexer reports at an offset where it has not read anything yet. -/
def Token.blank (pos : Nat) : Token where
  kind := .unknown
  fullStart := pos
  start := pos
  value := []
  afterLineBreak := false
  unterminated := false

/-- A reader of tokens. -/
structure Lexer where
  source : Source
  token : Token
  cursor : Cursor
  diagnostics : Array Diagnostic

namespace Lexer

/-- The lexer at the start of a source text. -/
def start (source : Source) : Lexer := ⟨source, .blank 0, source.cursor 0, #[]⟩

/-- The offset behind the current token. -/
def stop (l : Lexer) : Nat := l.cursor.pos

/-- The source text of the current token. -/
def text (l : Lexer) : List Char := l.source.slice l.token.start l.stop

/-- Move to an offset, held at the end of the text, and forget the current token. -/
def setPosition (l : Lexer) (pos : Nat) : Lexer :=
  let pos := min pos l.source.size
  { l with token := .blank pos, cursor := l.source.cursor pos }

/-- Pass a first line that begins with `#!`.  The line end is left for the trivia. -/
def skipShebang (l : Lexer) : Lexer :=
  match l.cursor.pos, l.source.chars with
  | 0, '#' :: '!' :: _ =>
    { l with cursor := (l.source.cursor 0).skipWhile fun c => !endsLine c }
  | _, _ => l

/-- Report what is wrong with a token. -/
def report (l : Lexer) : Option Diagnostic → Lexer
  | some diagnostic => { l with diagnostics := l.diagnostics.push diagnostic }
  | none => l

/-- Read the next token. -/
def scan (l : Lexer) : Lexer :=
  let trivia := Trivia.before l.cursor
  let scanned := Scanned.token trivia.stop
  let l := if trivia.unclosed then l.report (some ⟨l.source.size, 0, .commentEndExpected⟩) else l
  let token : Token :=
    { kind := scanned.kind
      fullStart := l.cursor.pos
      start := trivia.stop.pos
      value := scanned.value
      afterLineBreak := trivia.lineBreak
      unterminated := scanned.unterminated }
  { l with token, cursor := scanned.stop }.report scanned.fault

/-! ## Reading the current token in another way -/

/-- Put a token that was read in another way in the place of the current one. -/
def replaceToken (l : Lexer) (scanned : Scanned) : Lexer :=
  let token : Token :=
    { l.token with
      kind := scanned.kind
      value := scanned.value
      unterminated := l.token.unterminated || scanned.unterminated }
  { l with token, cursor := scanned.stop }.report scanned.fault

/-- The operator that begins with `>` and goes on with the given text, and how many characters of
this text it takes. -/
def greaterOperator : (rest : List Char) → TokenKind × Nat
  | '>' :: '>' :: '=' :: _ => (.greaterThanGreaterThanGreaterThanEquals, 3)
  | '>' :: '>' :: _ => (.greaterThanGreaterThanGreaterThan, 2)
  | '>' :: '=' :: _ => (.greaterThanGreaterThanEquals, 2)
  | '>' :: _ => (.greaterThanGreaterThan, 1)
  | '=' :: _ => (.greaterThanEquals, 1)
  | _ => (.greaterThan, 0)

/-- Extend a `>` to the longest operator that begins with it. -/
def rescanGreater (l : Lexer) : Lexer :=
  if l.token.kind == .greaterThan then
    let (kind, length) := greaterOperator l.cursor.rest
    { l with token := { l.token with kind }, cursor := l.cursor.skip length }
  else l

/-- Read `/` or `/=` as the front of a regular expression. -/
def rescanSlash (l : Lexer) : Lexer :=
  if l.token.kind == .slash || l.token.kind == .slashEquals then
    l.replaceToken (Scanned.regularExpression (l.source.cursor l.token.start))
  else l

/-- Read a closing brace as the end of a substitution, together with the piece of the template that
follows it. -/
def rescanTemplate (l : Lexer) : Lexer :=
  l.replaceToken (Scanned.template false (l.source.cursor (l.token.start + 1)))

/-! ## Looking ahead -/

/-- The state of a lexer at an earlier time. -/
structure Snapshot where
  token : Token
  cursor : Cursor
  diagnosticCount : Nat
  deriving DecidableEq, Repr

/-- Remember the state of a lexer. -/
def save (l : Lexer) : Snapshot := ⟨l.token, l.cursor, l.diagnostics.size⟩

/-- Come back to a remembered state. -/
def restore (l : Lexer) (s : Snapshot) : Lexer :=
  { l with
    token := s.token
    cursor := s.cursor
    diagnostics := l.diagnostics.shrink s.diagnosticCount }

/-- Every token from here to the end of the text, the end included.  Each step reads at least one
character, so `fuel` may be the number of characters left. -/
def scanAll (l : Lexer) : (fuel : Nat) → List Lexer
  | 0 => [l.scan]
  | fuel + 1 =>
    let l := l.scan
    if l.token.kind == .endOfFile then [l] else l :: scanAll l fuel

end Lexer

end InlineValues

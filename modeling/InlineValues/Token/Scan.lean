import InlineValues.Diagnostic
import InlineValues.Text.CharClass
import InlineValues.Text.LineMap
import InlineValues.Token.Cursor
import InlineValues.Token.Kind

/-!
# Reading one token

`Scanned.token` reads the token at a cursor that stands behind the trivia.  Names, literals and
punctuation are each read by a function of their own, and a character that begins none of them is
an unknown token of its own, with a fault.

Two tokens are read only when the grammar asks for them: a regular expression where a slash was
seen (`Scanned.regularExpression`), and the continuation of a template where a closing brace was
seen (`Scanned.template` with `head` off).

A literal that is cut off by the end of its line or of the text is a token all the same.  It is
marked unterminated, and it carries the fault.
-/

namespace InlineValues

/-- A token that was read: its kind and value, where it ends, and what is wrong with it. -/
structure Scanned where
  kind : TokenKind
  value : List Char
  stop : Cursor
  unterminated : Bool := false
  fault : Option Diagnostic := none
  deriving DecidableEq, Repr

namespace Scanned

/-! ## Numbers -/

/-- A run of digits, which may hold `_` behind the first one. -/
def digits (isDigit : Char → Bool) (c : Cursor) : Cursor :=
  if c.sees isDigit then c.skipWhile fun a => isDigit a || a == '_' else c

/-- The digits that a letter behind a leading zero announces. -/
def radixDigit? : Char → Option (Char → Bool)
  | 'x' | 'X' => some isHexDigit
  | 'o' | 'O' => some isOctalDigit
  | 'b' | 'B' => some isBinaryDigit
  | _ => none

/-- The fault of a number without digits where there have to be some, between two cursors. -/
def missingDigits (c d : Cursor) : Option Diagnostic :=
  if d.pos == c.pos then some ⟨c.pos, 0, .digitExpected⟩ else none

/-- Close a number at `stop`.  An integer followed by `n` is a big integer. -/
def closeNumber (start stop : Cursor) (integer : Bool) (fault : Option Diagnostic) : Scanned :=
  if integer && stop.sees (· == 'n') then
    { kind := .bigIntLiteral, value := start.textTo stop.advance, stop := stop.advance, fault }
  else { kind := .numericLiteral, value := start.textTo stop, stop, fault }

/-- The number at a cursor that is written with a radix, from behind its two leading characters. -/
def radixNumber (start body : Cursor) (isDigit : Char → Bool) : Scanned :=
  let stop := digits isDigit body
  closeNumber start stop true (missingDigits body stop)

/-- The decimal number at a cursor: digits, a fraction and an exponent, each optional. -/
def decimalNumber (start : Cursor) : Scanned :=
  let whole := digits isDecimalDigit start
  let hasFraction := whole.sees (· == '.')
  let fraction := if hasFraction then digits isDecimalDigit whole.advance else whole
  if fraction.sees (fun a => a == 'e' || a == 'E') then
    let sign := fraction.advance.skipIf fun a => a == '+' || a == '-'
    let stop := digits isDecimalDigit sign
    closeNumber start stop false (missingDigits sign stop)
  else closeNumber start fraction (!hasFraction) none

/-- The number at a cursor. -/
def number (start : Cursor) : Scanned :=
  match start.rest with
  | '0' :: letter :: _ =>
    match radixDigit? letter with
    | some isDigit => radixNumber start (start.skip 2) isDigit
    | none => decimalNumber start
  | _ => decimalNumber start

/-! ## Strings -/

/-- The end of the text of a string: its closing quote, the end of the line, or the end of the
text.  A backslash takes the character behind it along, also a line break. -/
def stringStop (quote : Char) : (rest : List Char) → (pos : Nat) → Cursor
  | [], pos => ⟨[], pos⟩
  | '\\' :: '\r' :: '\n' :: rest, pos => stringStop quote rest (pos + 3)
  | '\\' :: c :: rest, pos => stringStop quote rest (pos + 1 + c.utf8Size)
  | c :: rest, pos =>
    if c == quote || endsLine c then ⟨c :: rest, pos⟩
    else stringStop quote rest (pos + c.utf8Size)

/-- The string at a cursor that stands before its opening quote. -/
def string (quote : Char) (start : Cursor) : Scanned :=
  let body := start.advance
  let stop := stringStop quote body.rest body.pos
  let value := body.textTo stop
  if stop.sees (· == quote) then { kind := .stringLiteral, value, stop := stop.advance }
  else
    { kind := .stringLiteral, value, stop, unterminated := true
      fault := some ⟨stop.pos, 0, .unterminatedString⟩ }

/-! ## Templates -/

/-- The end of a piece of a template: its closing quote, the start of a substitution, or the end of
the text. -/
def templateStop : (rest : List Char) → (pos : Nat) → Cursor
  | [], pos => ⟨[], pos⟩
  | '$' :: '\x7b' :: rest, pos => ⟨'$' :: '\x7b' :: rest, pos⟩
  | '\\' :: c :: rest, pos => templateStop rest (pos + 1 + c.utf8Size)
  | c :: rest, pos =>
    if c == '\x60' then ⟨c :: rest, pos⟩ else templateStop rest (pos + c.utf8Size)

/-- The piece of a template whose text starts at a cursor.  `head` says that the piece opens the
template; otherwise it follows a substitution. -/
def template (head : Bool) (body : Cursor) : Scanned :=
  let stop := templateStop body.rest body.pos
  let value := body.textTo stop
  let last : TokenKind := if head then .noSubstitutionTemplateLiteral else .templateTail
  match stop.rest with
  | [] =>
    { kind := last, value, stop, unterminated := true
      fault := some ⟨stop.pos, 0, .unterminatedTemplate⟩ }
  | '$' :: _ =>
    { kind := if head then .templateHead else .templateMiddle, value, stop := stop.skip 2 }
  | _ => { kind := last, value, stop := stop.advance }

/-! ## Regular expressions -/

/-- The end of the body of a regular expression: its closing slash, a line break, or the end of the
text.  Inside a class, between brackets, a slash is a character like any other.  A backslash takes
the character behind it along, but no line break. -/
def regularExpressionStop (inClass : Bool) : (rest : List Char) → (pos : Nat) → Cursor
  | [], pos => ⟨[], pos⟩
  | '\\' :: c :: rest, pos =>
    if isLineBreak c then ⟨c :: rest, pos + 1⟩
    else regularExpressionStop inClass rest (pos + 1 + c.utf8Size)
  | c :: rest, pos =>
    if isLineBreak c || (c == '/' && !inClass) then ⟨c :: rest, pos⟩
    else
      regularExpressionStop (if c == '[' then true else if c == ']' then false else inClass) rest
        (pos + c.utf8Size)

/-- The regular expression at a cursor that stands before its opening slash. -/
def regularExpression (start : Cursor) : Scanned :=
  let body := start.advance
  let stop := regularExpressionStop false body.rest body.pos
  if stop.sees (· == '/') then
    let flags := stop.advance.skipWhile isIdentifierPart
    { kind := .regularExpressionLiteral, value := start.textTo flags, stop := flags }
  else
    { kind := .regularExpressionLiteral, value := start.textTo stop, stop, unterminated := true
      fault := some ⟨start.pos, stop.pos - start.pos, .unterminatedRegex⟩ }

/-! ## Names, punctuation and the rest -/

/-- The name or keyword at a cursor. -/
def word (start : Cursor) : Scanned :=
  let stop := start.advance.skipWhile isIdentifierPart
  let value := start.textTo stop
  { kind := (TokenKind.ofWord? value).getD .identifier, value, stop }

/-- The private name at a cursor that stands before its `#`. -/
def privateName (start : Cursor) : Scanned :=
  let stop := start.advance.skipWhile isIdentifierPart
  { kind := .privateIdentifier, value := start.textTo stop, stop }

/-- A character that begins no token. -/
def invalid (start : Cursor) : Scanned :=
  let stop := start.advance
  { kind := .unknown, value := [], stop
    fault := some ⟨start.pos, stop.pos - start.pos, .invalidCharacter⟩ }

/-- The token at a cursor that stands behind the trivia. -/
def token (start : Cursor) : Scanned :=
  match start.rest with
  | [] => { kind := .endOfFile, value := [], stop := start }
  | c :: rest =>
    if c == '\x22' || c == '\x27' then string c start
    else if c == '\x60' then template true start.advance
    else if isDecimalDigit c || (c == '.' && rest.head?.any isDecimalDigit) then number start
    else if c == '#' && rest.head?.any isIdentifierStart then privateName start
    else if isIdentifierStart c then word start
    else
      match TokenKind.operator? start.rest with
      | some (kind, length) => { kind, value := [], stop := start.skip length }
      | none => invalid start

end Scanned

end InlineValues

/-!
# Diagnostics

What can be wrong with a source text is a `Fault`.  Every fault has a number, which is the one the
TypeScript compiler prints for it, and a message.  One fault names the text that was missing, so
its message is a template with the placeholder `{0}`; the rest are fixed.

`fillTemplate` is the general substitution: it replaces the placeholders one after the other, so a
text that is put in for the first may itself hold the second.
-/

namespace InlineValues

/-! ## Templates -/

/-- Replace every occurrence of a nonempty pattern, from left to right and without overlap.  While
`skip` is positive the text belongs to an occurrence that was replaced. -/
def replaceAllFrom (pattern replacement : List Char) : (skip : Nat) → List Char → List Char
  | _, [] => []
  | skip + 1, _ :: cs => replaceAllFrom pattern replacement skip cs
  | 0, c :: cs =>
    if pattern.isPrefixOf (c :: cs) then
      replacement ++ replaceAllFrom pattern replacement (pattern.length - 1) cs
    else c :: replaceAllFrom pattern replacement 0 cs

/-- Put the arguments in for the placeholders `{0}`, `{1}`, … of a template, in this order. -/
def fillTemplate (template : List Char) (args : List (List Char)) : List Char :=
  args.zipIdx.foldl
    (fun text arg => replaceAllFrom ('\x7b' :: (Nat.toDigits 10 arg.2 ++ ['\x7d'])) arg.1 0 text)
    template

/-! ## Faults -/

/-- What can be wrong with a source text. -/
inductive Fault where
  | invalidCharacter
  | unterminatedString
  | identifierExpected
  | textExpected (text : List Char)
  | unexpectedToken
  | expressionExpected
  | declarationOrStatementExpected
  | digitExpected
  | unterminatedTemplate
  | unterminatedRegex
  | commentEndExpected
  | typeExpected
  | propertyAssignmentExpected
  | excessiveNesting
  deriving DecidableEq, Repr

namespace Fault

/-- The number under which a fault is reported. -/
def code : Fault → Nat
  | invalidCharacter => 1127
  | unterminatedString => 1002
  | identifierExpected => 1003
  | textExpected _ => 1005
  | unexpectedToken => 1012
  | expressionExpected => 1109
  | declarationOrStatementExpected => 1128
  | digitExpected => 1124
  | unterminatedTemplate => 1160
  | unterminatedRegex => 1161
  | commentEndExpected => 1010
  | typeExpected => 1110
  | propertyAssignmentExpected => 1136
  | excessiveNesting => 1359

/-- The message of a fault before its argument is put in. -/
def template : Fault → String
  | invalidCharacter => "Invalid character."
  | unterminatedString => "Unterminated string literal."
  | identifierExpected => "Identifier expected."
  | textExpected _ => "'\x7b0\x7d' expected."
  | unexpectedToken => "Unexpected token."
  | expressionExpected => "Expression expected."
  | declarationOrStatementExpected => "Declaration or statement expected."
  | digitExpected => "Digit expected."
  | unterminatedTemplate => "Unterminated template literal."
  | unterminatedRegex => "Unterminated regular expression literal."
  | commentEndExpected => "'*/' expected."
  | typeExpected => "Type expected."
  | propertyAssignmentExpected => "Property assignment expected."
  | excessiveNesting => "Source is nested too deeply to parse."

/-- The message of a fault. -/
def message : Fault → String
  | textExpected text =>
    String.ofList (fillTemplate (textExpected text).template.toList [text])
  | fault => fault.template

/-- One fault of each number. -/
def representatives : List Fault :=
  [invalidCharacter, unterminatedString, identifierExpected, textExpected [], unexpectedToken,
    expressionExpected, declarationOrStatementExpected, digitExpected, unterminatedTemplate,
    unterminatedRegex, commentEndExpected, typeExpected, propertyAssignmentExpected,
    excessiveNesting]

/-- The message template of a fault number, if it is one. -/
def templateOfCode? (code : Nat) : Option String :=
  (representatives.find? fun fault => fault.code == code).map template

end Fault

/-- A fault at a place of the source text. -/
structure Diagnostic where
  start : Nat
  length : Nat
  fault : Fault
  deriving DecidableEq, Repr

end InlineValues

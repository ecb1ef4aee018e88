import InlineValues.Printer.Part

/-!
# Printing literals

A literal is printed as it is spelled in the source text, with its quotes, escapes and digits.  One
that comes from no source text is printed from its text, and if it is a string it is quoted.
-/

namespace InlineValues

/-- A character between double quotes. -/
def quotedChar : Char → List Char
  | '\n' => ['\\', 'n']
  | '\r' => ['\\', 'r']
  | '\t' => ['\\', 't']
  | '\\' => ['\\', '\\']
  | '\x22' => ['\\', '\x22']
  | c => [c]

/-- A text in double quotes. -/
def quoted (cs : List Char) : List Char := '\x22' :: cs.flatMap quotedChar ++ ['\x22']

/-- How a node is spelled in the source text, without the trivia in front of it. -/
def PrintContext.spellingOf (c : PrintContext) (n : Node) : List Char :=
  match c.source? with
  | some s => s.slice (n.start s) n.stop
  | none => []

/-- A leaf of some kind with a text.  Keywords and signs are printed as such. -/
def printLeaf (c : PrintContext) (n : Node) (kind : TokenKind) (text : List Char) : List Mark :=
  if kind.isLiteral || kind.isTemplatePiece then
    let spelling := c.spellingOf n
    if !spelling.isEmpty then [.text spelling]
    else [.text (if kind == .stringLiteral then quoted text else text)]
  else spelled kind

end InlineValues

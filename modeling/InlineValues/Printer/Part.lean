import InlineValues.Printer.Mark
import InlineValues.Text.Comment
import InlineValues.Text.Trim
import InlineValues.Tree.Node

/-!
# Printing the parts of a node

How a node is printed depends on how its parts are, so every function here takes a printer for the
parts, `emit`.  A part that is missing prints as nothing.  This module holds what many forms share:
lists, parts that bring a separator with them, statements and the comments in front of them.
-/

namespace InlineValues

/-- A printer for the parts of a node. -/
abbrev Emit := Option Node → List Mark

/-- What a printer knows besides the tree. -/
structure PrintContext where
  /-- The text that the tree was read from. -/
  source? : Option Source
  /-- Whether the block comments in front of a statement are printed. -/
  keepComments : Bool

/-! ## Tokens and optional parts -/

/-- A keyword or a sign. -/
def spelled (kind : TokenKind) : List Mark := [.text kind.spelling]

/-- A text that stands under a condition. -/
def writeIf (condition : Bool) (s : String) : List Mark := if condition then write s else []

/-- A part with a separator in front of it, if the part is there. -/
def preceded (separator : String) (emit : Emit) : (part : Option Node) → List Mark
  | none => []
  | some n => write separator ++ emit n

/-- A type annotation. -/
def annotation (emit : Emit) (type : Option Node) : List Mark := preceded ": " emit type

/-- An initializer. -/
def initialized (emit : Emit) (value : Option Node) : List Mark := preceded " = " emit value

/-- Decorators and modifiers, each with a blank behind it. -/
def modified (emit : Emit) (modifiers : Option (Sequence Node)) : List Mark :=
  (itemsOf modifiers).flatMap fun n => emit (some n) ++ write " "

/-! ## Lists -/

/-- Parts with commas between them. -/
def commaSeparated (emit : Emit) (parts : List Node) : List Mark :=
  (write ", ").intercalate (parts.map fun n => emit (some n))

/-- Parts with commas between them, and behind the last one if the source has one there. -/
def commaList (emit : Emit) (list : Sequence Node) : List Mark :=
  commaSeparated emit list.items ++ writeIf (list.trailingComma && !list.items.isEmpty) ","

/-- A list in parentheses. -/
def parenthesizedList (emit : Emit) (list : Sequence Node) : List Mark :=
  write "(" ++ commaSeparated emit list.items ++ write ")"

/-- A list in angle brackets, if there is one. -/
def angledList (emit : Emit) : (list : Option (Sequence Node)) → List Mark
  | none => []
  | some list => write "<" ++ commaSeparated emit list.items ++ write ">"

/-- A list in square brackets. -/
def bracketedList (emit : Emit) (list : Sequence Node) : List Mark :=
  write "[" ++ commaList emit list ++ write "]"

/-- A list in braces, which are set apart by blanks unless the list is empty. -/
def bracedList (emit : Emit) (list : Sequence Node) : List Mark :=
  if list.items.isEmpty then write "\x7b\x7d"
  else write "\x7b " ++ commaList emit list ++ write " \x7d"

/-! ## Comments -/

/-- The lines of a text, without an empty last one. -/
def linesOf (cs : List Char) : List (List Char) :=
  let lines := cs.splitOn '\n'
  if lines.getLast? == some [] then lines.dropLast else lines

/-- A block comment: its lines, trimmed, and a blank. -/
def blockComment (cs : List Char) : List Mark :=
  [Mark.line].intercalate ((linesOf cs).map fun line => [.text (trimmed line)]) ++ write " "

/-- The block comments in front of a node. -/
def commentsBefore (c : PrintContext) (n : Node) : List Mark :=
  match c.keepComments, c.source? with
  | true, some s =>
    ((leadingComments s n.pos).takeWhile (·.stop ≤ n.start s)).flatMap fun comment =>
      match comment.form with
      | .block => blockComment (s.slice comment.start comment.stop)
      | .line => []
  | _, _ => []

/-! ## Statements -/

/-- Statements, each on a line of its own. -/
def statementLines (c : PrintContext) (emit : Emit) (statements : Sequence Node) : List Mark :=
  statements.items.flatMap fun n => .line :: commentsBefore c n ++ emit (some n)

/-- Statements in braces. -/
def bracedStatements (c : PrintContext) (emit : Emit) (statements : Sequence Node) : List Mark :=
  if statements.items.isEmpty then write "\x7b \x7d"
  else write "\x7b" ++ statementLines c emit statements ++ [.line] ++ write "\x7d"

/-- Members in braces, each on a line of its own. -/
def bracedMembers (emit : Emit) (members : Sequence Node) : List Mark :=
  write "\x7b" ++ members.items.flatMap (fun n => .line :: emit (some n)) ++ [.line] ++ write "\x7d"

/-- A statement that belongs to another one. -/
def embedded (emit : Emit) (statement : Option Node) : List Mark := write " " ++ emit statement

end InlineValues

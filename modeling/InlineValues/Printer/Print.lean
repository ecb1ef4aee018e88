import InlineValues.Printer.Form

/-!
# The printer

`print` turns a node into one line of source text.  Nodes that lie deeper than `maxPrintDepth` are
left out, and the result says whether that happened.
-/

namespace InlineValues

/-- How many nodes may be printed one inside the other. -/
def maxPrintDepth : Nat := 1000

/-- The marks of a node, down to a depth.  A missing node has none. -/
def marksOf (c : PrintContext) : (depth : Nat) → Option Node → List Mark
  | _, none => []
  | 0, some _ => [.cut]
  | depth + 1, some n => printNode c (marksOf c depth) n

/-- What a printer leaves out. -/
structure PrintOptions where
  /-- All comments.  Otherwise the block comments in front of statements are kept. -/
  removeComments : Bool := true
  /-- A semicolon at the end of the output. -/
  omitTrailingSemicolon : Bool := true
  deriving DecidableEq, Repr

/-- A printed node, and whether parts of it were left out. -/
structure Printed where
  text : List Char
  truncated : Bool
  deriving DecidableEq, Repr

/-- Print a node that was read from a source text, or that comes from none. -/
def print (source? : Option Source) (options : PrintOptions) (n : Node) : Printed :=
  let marks := marksOf ⟨source?, !options.removeComments⟩ maxPrintDepth n
  ⟨layOut options.omitTrailingSemicolon marks, marks.contains .cut⟩

end InlineValues

import InlineValues.Text.CharClass

/-!
# White space at the ends of a text
-/

namespace InlineValues

/-- A text without white space at its end. -/
def trimmedEnd (cs : List Char) : List Char := (cs.reverse.dropWhile isWhiteSpace).reverse

/-- A text without white space at its ends. -/
def trimmed (cs : List Char) : List Char := trimmedEnd (cs.dropWhile isWhiteSpace)

/-- A text of white space alone. -/
def isBlankText (cs : List Char) : Bool := cs.all isWhiteSpace

end InlineValues

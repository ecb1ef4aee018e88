/-!
# Forms of a log
-/

namespace InlineValues

/-- The forms in which a log can be written. -/
inductive LogFormat where
  | text
  | tree
  | json
  deriving DecidableEq, Repr

/-- The form of a name.  Case does not matter, and a name that means nothing stands for plain
text. -/
def LogFormat.ofName (name : String) : LogFormat :=
  match String.ofList (name.toList.map Char.toLower) with
  | "tree" => tree
  | "json" => json
  | _ => text

end InlineValues

import InlineValues.Json.Basic

/-!
# Writing JSON

`Json.render` writes a value without spaces, and `Json.pretty` with an item or a member on each
line.  In strings both escape the quote, the backslash and the control characters below the space,
and leave every other character as it is.
-/

namespace InlineValues
namespace Json

/-- The lower-case hexadecimal digit of a number below sixteen. -/
def hexDigit (n : Nat) : Char := (Nat.digitChar n)

/-- A character as it is written in a string. -/
def escape (c : Char) : String :=
  if c == '\x22' then "\\\x22"
  else if c == '\\' then "\\\\"
  else if c == '\n' then "\\n"
  else if c == '\r' then "\\r"
  else if c == '\t' then "\\t"
  else if c == '\x08' then "\\b"
  else if c == '\x0c' then "\\f"
  else if c.val < 0x20 then
    "\\u00" ++ String.ofList [hexDigit (c.val.toNat / 16), hexDigit (c.val.toNat % 16)]
  else String.singleton c

/-- Write a string behind `out`. -/
def renderStringOnto (out : String) (s : String) : String :=
  (s.toList.foldl (fun out c => out ++ escape c) (out.push '\x22')).push '\x22'

mutual

/-- Write a value behind `out`. -/
def renderOnto (out : String) : Json → String
  | null | unrepresentable => out ++ "null"
  | bool value => out ++ (if value then "true" else "false")
  | natural value => out ++ toString value
  | number text => out ++ text
  | string value => renderStringOnto out value
  | array [] => out ++ "[]"
  | array (item :: items) => (renderItemsOnto (renderOnto (out.push '[') item) items).push ']'
  | object [] => out ++ "\x7b\x7d"
  | object ((name, value) :: members) =>
    let out := renderOnto ((renderStringOnto (out.push '\x7b') name).push ':') value
    (renderMembersOnto out members).push '\x7d'

/-- Write further items of an array behind `out`. -/
def renderItemsOnto (out : String) : List Json → String
  | [] => out
  | item :: items => renderItemsOnto (renderOnto (out.push ',') item) items

/-- Write further members of an object behind `out`. -/
def renderMembersOnto (out : String) : List (String × Json) → String
  | [] => out
  | (name, value) :: members =>
    let out := renderOnto ((renderStringOnto (out.push ',') name).push ':') value
    renderMembersOnto out members

end

/-- The text of a value. -/
def render (value : Json) : String := renderOnto "" value

/-! ## A line for each item -/

/-- Begin a line behind `out`, with two blanks for each level. -/
def lineOnto (out : String) (level : Nat) : String :=
  (out.push '\n') ++ String.ofList (List.replicate (2 * level) ' ')

mutual

/-- Write a value behind `out`, where the lines of its parts are `level` deep. -/
def prettyOnto (level : Nat) (out : String) : Json → String
  | array (item :: items) =>
    let out := prettyOnto (level + 1) (lineOnto (out.push '[') level) item
    (lineOnto (prettyItemsOnto level out items) (level - 1)).push ']'
  | object ((name, value) :: members) =>
    let out := renderStringOnto (lineOnto (out.push '\x7b') level) name ++ ": "
    let out := prettyOnto (level + 1) out value
    (lineOnto (prettyMembersOnto level out members) (level - 1)).push '\x7d'
  | value => renderOnto out value

/-- Write further items of an array behind `out`. -/
def prettyItemsOnto (level : Nat) (out : String) : List Json → String
  | [] => out
  | item :: items =>
    prettyItemsOnto level (prettyOnto (level + 1) (lineOnto (out.push ',') level) item) items

/-- Write further members of an object behind `out`. -/
def prettyMembersOnto (level : Nat) (out : String) : List (String × Json) → String
  | [] => out
  | (name, value) :: members =>
    let out := renderStringOnto (lineOnto (out.push ',') level) name ++ ": "
    prettyMembersOnto level (prettyOnto (level + 1) out value) members

end

/-- The text of a value, with an item or a member on each line. -/
def pretty (value : Json) : String := prettyOnto 1 "" value

end Json
end InlineValues

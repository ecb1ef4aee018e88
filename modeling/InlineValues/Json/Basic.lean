/-!
# JSON values

Requests and responses are JSON.  A value remembers what a decoder has to tell apart: an object
lists its members in the order in which they were written, repeated names included, and a plain
natural number of 64 bits differs from every other number, which is kept as it was written.

A text may be well formed and still denote no value, because a string holds half of a surrogate
pair or a number is too large for a double.  Such a literal is `unrepresentable`.  A decoder refuses
it where it looks at it and skips it where it does not.
-/

namespace InlineValues

/-- A JSON value. -/
inductive Json where
  | null
  | bool (value : Bool)
  /-- A number below `2 ^ 64` that is written with digits alone. -/
  | natural (value : Nat)
  /-- Any other number, as it is written. -/
  | number (text : String)
  | string (value : String)
  | array (items : List Json)
  | object (members : List (String × Json))
  /-- A literal that denotes no value. -/
  | unrepresentable
  deriving Repr, Inhabited

namespace Json

/-- The last member of a name, if the value is an object that has one. -/
def member? (name : String) : Json → Option Json
  | object members => (members.reverse.find? fun m => m.1 == name).map (·.2)
  | _ => none

/-- The text of a string. -/
def asString? : Json → Option String
  | string value => some value
  | _ => none

/-- The value of a plain natural number. -/
def asNatural? : Json → Option Nat
  | natural value => some value
  | _ => none

/-- The value of a Boolean. -/
def asBool? : Json → Option Bool
  | bool value => some value
  | _ => none

/-- The items of an array. -/
def asArray? : Json → Option (List Json)
  | array items => some items
  | _ => none

mutual

/-- Whether a value is representable throughout and its arrays and objects are nested at most
`depth` deep. -/
def fits (depth : Nat) : Json → Bool
  | null | bool _ | natural _ | number _ | string _ => true
  | unrepresentable => false
  | array items => 0 < depth && allFit (depth - 1) items
  | object members => 0 < depth && allMembersFit (depth - 1) members

/-- `fits` for every item. -/
def allFit (depth : Nat) : List Json → Bool
  | [] => true
  | item :: items => item.fits depth && allFit depth items

/-- `fits` for the value of every member. -/
def allMembersFit (depth : Nat) : List (String × Json) → Bool
  | [] => true
  | (_, value) :: members => value.fits depth && allMembersFit depth members

end

end Json

end InlineValues

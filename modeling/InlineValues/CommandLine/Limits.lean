import InlineValues.CommandLine.Options
import InlineValues.Query.Scope
import InlineValues.Text.Digits

/-!
# Values of options

Numbers on the command line, and the options on the number of scopes, which both programs have.
-/

namespace InlineValues

/-- The value of an option that is a 32-bit offset. -/
def offsetOption (value : String) : Except UsageError Nat :=
  match readOffset? value.toList with
  | some n => .ok n
  | none => .error .malformedNumber

/-- The value of an option that is a count. -/
def countOption (value : String) : Except UsageError Nat :=
  match readCount? value.toList with
  | some n => .ok n
  | none => .error .malformedNumber

/-- The options on the number of scopes. -/
inductive LimitOption where
  | strong
  | all
  deriving DecidableEq, Repr

/-- The option of a long name. -/
def LimitOption.named : String → Option LimitOption
  | "maxStrongScopes" | "max-strong-scopes" => some strong
  | "maxScopes" | "max-scopes" => some all
  | _ => none

/-- The limits that were given. -/
structure GivenLimits where
  strong : Option Nat := none
  all : Option Nat := none
  deriving DecidableEq, Repr

namespace GivenLimits

/-- Store a limit. -/
def store (given : GivenLimits) (option : LimitOption) (value : String) :
    Except UsageError GivenLimits :=
  match option with
  | .strong => do return { given with strong := ← storeOnce given.strong (countOption value) }
  | .all => do return { given with all := ← storeOnce given.all (countOption value) }

/-- The limits, by default for what was not given. -/
def limits (given : GivenLimits) : ScopeLimits where
  strong := given.strong.getD ({} : ScopeLimits).strong
  all := given.all.getD ({} : ScopeLimits).all

end GivenLimits

end InlineValues

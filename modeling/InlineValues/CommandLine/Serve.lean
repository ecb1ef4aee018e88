import InlineValues.CommandLine.Limits
import InlineValues.Session.Framing

/-!
# Serving

The second of the two programs answers requests until its input ends.  Its arguments choose the
protocol and the limits.
-/

namespace InlineValues

/-- The protocol of a name. -/
def Protocol.ofName? : String → Option Protocol
  | "tsserver" => some tsserver
  | "legacy" => some legacy
  | _ => none

/-- The options of the server. -/
inductive ServeOption where
  | protocol
  | limit (option : LimitOption)
  deriving DecidableEq, Repr

/-- The option of a long name. -/
def ServeOption.named : String → Option ServeOption
  | "protocol" => some protocol
  | name => (LimitOption.named name).map limit

/-- The arguments of the server, as they were given. -/
structure GivenService where
  protocol : Option Protocol := none
  limits : GivenLimits := {}
  deriving DecidableEq, Repr

/-- Store a value. -/
def GivenService.store (given : GivenService) (option : ServeOption) (value : String) :
    Except UsageError GivenService :=
  match option with
  | .protocol => do
    let protocol := match Protocol.ofName? value with
      | some protocol => .ok protocol
      | none => .error .invalidValue
    return { given with protocol := ← storeOnce given.protocol protocol }
  | .limit option => do return { given with limits := ← given.limits.store option value }

/-- The options of the server. -/
def serveOptions : OptionTable ServeOption GivenService where
  named := ServeOption.named
  operand := none
  store := GivenService.store

/-- How the server is run. -/
structure Service where
  protocol : Protocol
  limits : ScopeLimits
  deriving DecidableEq, Repr

/-- The service that a list of arguments asks for. -/
def Service.ofArguments (arguments : List String) : Except UsageError Service := do
  let given ← serveOptions.read {} arguments
  return { protocol := given.protocol.getD .tsserver, limits := given.limits.limits }

end InlineValues

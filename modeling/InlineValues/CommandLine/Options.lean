/-!
# Options on a command line

The arguments of a program are options with a value, `--name value` or `--name=value`, and operands.
Behind `--` everything is an operand.  `OptionTable` says which options a program has and how a
value is stored, and `OptionTable.read` reads a list of arguments with it.

A value is looked at when the next argument has been recognized, or at the end.  An argument that is
not recognized is therefore reported before a wrong value in front of it, while a request for help
comes behind it.
-/

namespace InlineValues

/-- Why arguments do not lead to a run. -/
inductive UsageError where
  | missingArgument
  /-- Two arguments exclude each other, or an option is repeated. -/
  | conflict
  /-- A value is not a number of the right size. -/
  | malformedNumber
  /-- A value is not one of those that are possible, or there is none. -/
  | invalidValue
  | unknownArgument
  /-- An option that takes no value has one. -/
  | superfluousValue
  | helpWanted
  | versionWanted
  deriving DecidableEq, Repr

/-- The options of a program: `ο` names them, and `σ` holds their values. -/
structure OptionTable (ο σ : Type) where
  /-- The option of a long name. -/
  named : String → Option ο
  /-- What the operand stands for, if the program takes one. -/
  operand : Option ο
  /-- Store a value. -/
  store : σ → ο → String → Except UsageError σ

/-- What was read of a list of arguments. -/
structure ReadArguments (ο σ : Type) where
  stored : σ
  /-- An option, with its value if there is one, that is still to be stored. -/
  pending : Option (ο × Option String) := none
  operandRead : Bool := false
  /-- Whether everything that follows is an operand. -/
  operandsOnly : Bool := false

namespace OptionTable

variable {ο σ : Type}

/-- Store the pending option. -/
def settle (t : OptionTable ο σ) (r : ReadArguments ο σ) :
    Except UsageError (ReadArguments ο σ) :=
  match r.pending with
  | none => .ok r
  | some (_, none) => .error .invalidValue
  | some (option, some value) => do
    return { r with stored := ← t.store r.stored option value, pending := none }

/-- Stop at an option that takes no value. -/
def stop (t : OptionTable ο σ) (r : ReadArguments ο σ) (reason : UsageError) :
    Except UsageError (ReadArguments ο σ) := do
  let _ ← t.settle r
  throw reason

/-- The reason to stop that a long name stands for. -/
def stopName? : String → Option UsageError
  | "help" => some .helpWanted
  | "version" => some .versionWanted
  | _ => none

/-- Read an operand. -/
def readOperand (t : OptionTable ο σ) (r : ReadArguments ο σ) (argument : String) :
    Except UsageError (ReadArguments ο σ) :=
  match r.operandRead, t.operand with
  | false, some option => do
    return { ← t.settle r with pending := some (option, some argument), operandRead := true }
  | _, _ => .error .unknownArgument

/-- Read a long name, and the value that is attached to it. -/
def readLong (t : OptionTable ο σ) (r : ReadArguments ο σ) (name : String)
    (value : Option String) : Except UsageError (ReadArguments ο σ) :=
  match stopName? name, t.named name, value with
  | some reason, _, none => t.stop r reason
  | some _, _, some _ => .error .superfluousValue
  | none, some option, none => do
    return { ← t.settle r with pending := some (option, none) }
  | none, some option, some value => do
    let r ← t.settle r
    t.settle { r with pending := some (option, some value) }
  | none, none, _ => .error .unknownArgument

/-- Read an argument that has no name, as the value that is waited for or as an operand. -/
def readValue (t : OptionTable ο σ) (r : ReadArguments ο σ) (argument : String) :
    Except UsageError (ReadArguments ο σ) :=
  match r.pending with
  | some (option, none) => .ok { r with pending := some (option, some argument) }
  | _ => t.readOperand r argument

/-- Read an argument. -/
def readArgument (t : OptionTable ο σ) (r : ReadArguments ο σ) (argument : String) :
    Except UsageError (ReadArguments ο σ) :=
  if r.operandsOnly then t.readOperand r argument
  else
    match argument.toList with
    | ['-', '-'] => .ok { r with operandsOnly := true }
    | '-' :: '-' :: text =>
      let name := String.ofList (text.takeWhile (· != '='))
      match text.dropWhile (· != '=') with
      | [] => t.readLong r name none
      | _ :: value => t.readLong r name (some (String.ofList value))
    | '-' :: 'h' :: _ => t.stop r .helpWanted
    | '-' :: 'V' :: _ => t.stop r .versionWanted
    | '-' :: _ :: _ => .error .unknownArgument
    | _ => t.readValue r argument

/-- Read a list of arguments. -/
def read (t : OptionTable ο σ) (initial : σ) (arguments : List String) : Except UsageError σ := do
  let r ← arguments.foldlM t.readArgument { stored := initial }
  return (← t.settle r).stored

end OptionTable

/-- Store the value of an option that must not be repeated. -/
def storeOnce {α : Type} (stored : Option α) (value : Except UsageError α) :
    Except UsageError (Option α) :=
  match stored with
  | some _ => .error .conflict
  | none => some <$> value

end InlineValues

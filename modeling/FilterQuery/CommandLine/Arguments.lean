import FilterQuery.Text.Basic

/-!
# Arguments

The arguments of the program, read from left to right. An option whose value is the next argument
is settled when another argument is accepted or the arguments end; what is not known at all is
reported at once.
-/

namespace FilterQuery.CommandLine

structure Arguments where
  config : Option Text := none
  fields : List Text := []
  coalesce : Bool := false
  keepParens : Bool := false
  verbose : Bool := false
  queries : List Text := []
deriving DecidableEq, Repr

/-- Why the program does not start its work. -/
inductive Refusal
  | unknownArgument
  /-- A flag, or an option that is given once, is repeated. -/
  | argumentConflict
  /-- An option lacks its value, or the value is not allowed. -/
  | invalidValue
  /-- A flag is given a value. -/
  | tooManyValues
  | help
  | version
deriving DecidableEq, Repr

inductive ValueOption
  | config
  | field
deriving DecidableEq, Repr

inductive Flag
  | coalesce
  | keepParens
  | verbose
  | help
  | version
deriving DecidableEq, Repr

namespace Arguments

/-- Gives an option its value. -/
def assign (arguments : Arguments) (value : Text) : ValueOption → Except Refusal Arguments
  | .config =>
    if arguments.config.isSome then .error .argumentConflict
    else if value.isEmpty then .error .invalidValue
    else .ok { arguments with config := some value }
  | .field => .ok { arguments with fields := arguments.fields ++ [value] }

def raise (arguments : Arguments) : Flag → Except Refusal Arguments
  | .coalesce =>
    if arguments.coalesce then .error .argumentConflict
    else .ok { arguments with coalesce := true }
  | .keepParens =>
    if arguments.keepParens then .error .argumentConflict
    else .ok { arguments with keepParens := true }
  | .verbose =>
    if arguments.verbose then .error .argumentConflict
    else .ok { arguments with verbose := true }
  | .help => .error .help
  | .version => .error .version

end Arguments

/-- An option that was named, and its value once that was read. -/
structure Pending where
  option : ValueOption
  value : Option Text

structure State where
  arguments : Arguments
  pending : Option Pending
  /-- Everything that follows is a query. -/
  onlyQueries : Bool

namespace State

def start : State := ⟨{}, none, false⟩

variable (state : State)

/-- Completes the option that was named last. -/
def settle : Except Refusal State :=
  match state.pending with
  | none => .ok state
  | some ⟨_, none⟩ => .error .invalidValue
  | some ⟨option, some value⟩ => do
    let arguments ← state.arguments.assign value option
    return { state with arguments := arguments, pending := none }

def assign (option : ValueOption) (value : Text) : Except Refusal State := do
  let state ← state.settle
  let arguments ← state.arguments.assign value option
  return { state with arguments := arguments }

def raise (flag : Flag) : Except Refusal State := do
  let state ← state.settle
  let arguments ← state.arguments.raise flag
  return { state with arguments := arguments }

def await (option : ValueOption) : Except Refusal State := do
  let state ← state.settle
  return { state with pending := some ⟨option, none⟩ }

def addQuery (query : Text) : Except Refusal State := do
  let state ← state.settle
  let arguments := { state.arguments with queries := state.arguments.queries ++ [query] }
  return { state with arguments := arguments }

end State

def longOption? (name : Text) : Option ValueOption :=
  if name = "config".toList then some .config
  else if name = "field".toList then some .field
  else none

def longFlag? (name : Text) : Option Flag :=
  if name = "coalesce".toList then some .coalesce
  else if name = "keep-parens".toList then some .keepParens
  else if name = "verbose".toList then some .verbose
  else if name = "help".toList then some .help
  else if name = "version".toList then some .version
  else none

def shortOption? (c : Char) : Option ValueOption :=
  if c = 'c' then some .config else if c = 'f' then some .field else none

def shortFlag? (c : Char) : Option Flag :=
  if c = 'v' then some .verbose
  else if c = 'h' then some .help
  else if c = 'V' then some .version
  else none

/-- A long name, with a value after an equals sign or without one. -/
def readLong (state : State) (body : Text) : Except Refusal State :=
  let name := body.takeWhile (· != '=')
  match longOption? name, longFlag? name, body.drop name.length with
  | some option, _, [] => state.await option
  | some option, _, _ :: value => state.assign option value
  | none, some flag, [] => state.raise flag
  | none, some _, _ :: _ => .error .tooManyValues
  | none, none, _ => .error .unknownArgument

/-- Short names run together. What follows an option is its value, from which one equals sign is
dropped. -/
def readShort (state : State) : Text → Except Refusal State
  | [] => .ok state
  | c :: rest =>
    match shortOption? c, shortFlag? c with
    | some option, _ =>
      match rest with
      | [] => state.await option
      | '=' :: value => state.assign option value
      | value => state.assign option value
    | none, some flag => do
      let state ← state.raise flag
      readShort state rest
    | none, none => .error .unknownArgument

/-- An argument that names no option: the value of the last one, or a query. -/
def readPlain (state : State) (argument : Text) : Except Refusal State :=
  match state.pending with
  | some ⟨option, none⟩ => .ok { state with pending := some ⟨option, some argument⟩ }
  | _ => state.addQuery argument

def readArgument (state : State) (argument : Text) : Except Refusal State :=
  if state.onlyQueries then state.addQuery argument
  else
    match argument with
    | ['-', '-'] => .ok { state with onlyQueries := true }
    | '-' :: '-' :: body => readLong state body
    | '-' :: c :: rest => readShort state (c :: rest)
    | argument => readPlain state argument

/-- The arguments of the program, or why it does not start. -/
def Arguments.read (arguments : List Text) : Except Refusal Arguments := do
  let state ← arguments.foldlM readArgument State.start
  let state ← state.settle
  return state.arguments

end FilterQuery.CommandLine

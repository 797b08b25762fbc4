import FilterQuery.Batch
import FilterQuery.CommandLine.Arguments
import FilterQuery.FieldSpec
import FilterQuery.Settings

/-!
# The program

What the program does with its arguments, given the files it may read and its input. All of it is a
list of messages in order and an exit code; writing the messages out is left to the caller.
-/

namespace FilterQuery.CommandLine

/-- Why a settings file gives no settings. -/
inductive LoadError
  | unreadable (path : Text)
  | unusable (path : Text) (fault : SettingsFault)
deriving DecidableEq, Repr

def LoadError.context : LoadError → Text
  | unreadable path => "Failed to read config file: ".toList ++ path
  | unusable path _ => "Failed to parse config file: ".toList ++ path

/-- The last component of a path. -/
def fileName (path : Text) : Text :=
  let path := (path.reverse.dropWhile (· == '/')).reverse
  (path.reverse.takeWhile (· != '/')).reverse

/-- What follows the last point of a file name, unless the name begins with that point. -/
def extension? (path : Text) : Option Text :=
  let name := (fileName path).reverse
  match name.dropWhile (· != '.') with
  | _ :: _ :: _ =>
    if fileName path = "..".toList then none else some (name.takeWhile (· != '.')).reverse
  | _ => none

/-- A file is JSON by its extension, and YAML otherwise. -/
def formatOf (path : Text) : Settings.Format :=
  match extension? path with
  | some extension =>
    if Text.equalIgnoringCase extension "json".toList then .json else .yaml
  | none => .yaml

/-- Files that can be read, by their paths. -/
abbrev Files := Text → Option Text

def load (files : Files) (path : Text) : Except LoadError Settings :=
  match files path with
  | none => .error (.unreadable path)
  | some text => (Settings.ofText (formatOf path) text).mapError (.unusable path)

inductive SetupError
  | load (error : LoadError)
  | fieldSpec (fault : FieldSpec.Fault)
deriving DecidableEq, Repr

namespace SetupError

/-- The error behind this one, in words. -/
def source? : SetupError → Option Text
  | load error => some error.context
  | fieldSpec (.malformed _) => none
  | fieldSpec (.invalidType error) => some error.message

/-- An error in words, given what is said about the cause of a failed load. -/
def message (cause : LoadError → Text) : SetupError → Text
  | load error =>
    "Failed to load config: ".toList ++ error.context ++ ": ".toList ++ cause error ++
      "\n\nThe file must be YAML (or JSON with a .json extension), e.g.\n".toList ++
      "  fields:\n    name: TEXT\n    role: TAG\n    age: NUMERIC".toList
  | fieldSpec (.malformed spec) =>
    "Invalid field spec: '".toList ++ spec ++
      "'\n\nUse --field NAME=TYPE where TYPE is TEXT, TAG or NUMERIC.".toList
  | fieldSpec (.invalidType error) => "Invalid --field override: ".toList ++ error.message

/-- An error with everything behind it. -/
def chain (cause : LoadError → Text) (error : SetupError) : Text :=
  error.message cause ++
    match error with
    | load error => ": ".toList ++ error.context ++ ": ".toList ++ cause error
    | fieldSpec (.malformed _) => []
    | fieldSpec (.invalidType error) => ": ".toList ++ error.message

end SetupError

inductive Message
  /-- A line of output. -/
  | output (text : Text)
  /-- A line about an error. -/
  | error (text : Text)
  /-- A warning, which is always shown. -/
  | warning (text : Text)
  /-- A detail, which is shown on request. -/
  | detail (text : Text)
deriving DecidableEq, Repr

def loadedDetail (settings : Settings) (path : Text) : Message :=
  .detail ("Loaded ".toList ++ Numeral.ofNat settings.schema.size ++ " field types from ".toList ++
    path)

/-- The settings that the arguments name, and what is told about them. -/
def loadSettings (files : Files) (arguments : Arguments) :
    List Message × Except LoadError Settings :=
  match arguments.config with
  | none => ([], .ok .empty)
  | some path =>
    match load files path with
    | .ok settings => ([loadedDetail settings path], .ok settings)
    | .error error => ([], .error error)

/-- The settings with the overrides of the arguments. -/
def override (arguments : Arguments) (settings : Settings) : Except FieldSpec.Fault Settings := do
  let fields ← FieldSpec.schema arguments.fields
  return {
    schema := settings.schema.merge fields
    options := { settings.options with
      coalesceTags := settings.options.coalesceTags || arguments.coalesce
      stripParens := settings.options.stripParens && !arguments.keepParens } }

def emptySchemaWarning : Message :=
  .warning "No field types registered; only IS NULL and BETWEEN conditions will translate".toList

def schemaMessages (schema : Schema) : List Message :=
  (if schema.isEmpty then [emptySchemaWarning] else []) ++
    schema.entries.map fun entry =>
      .detail ("Field ".toList ++ entry.1 ++ " -> ".toList ++ entry.2.name)

/-- The compiler that the arguments ask for, and what is told on the way. -/
def setUp (files : Files) (arguments : Arguments) : List Message × Except SetupError Compiler :=
  match loadSettings files arguments with
  | (messages, .error error) => (messages, .error (.load error))
  | (messages, .ok settings) =>
    match override arguments settings with
    | .error fault => (messages, .error (.fieldSpec fault))
    | .ok settings => (messages ++ schemaMessages settings.schema, .ok settings.compiler)

def outcomeMessages (outcome : Batch.Outcome) : List Message :=
  .detail ("Input: ".toList ++ outcome.query) ::
    match outcome.result with
    | .ok query => [.detail ("Output: ".toList ++ query), .output query]
    | .error error => [.error (Batch.Outcome.failureText outcome.query error)]

def unreadableInput : Text := "Failed to read queries from stdin".toList

/-- The queries of the arguments, or else of the input, one on every line. -/
def queriesOf (arguments : Arguments) (input : ByteArray) : Option (List Text) :=
  if arguments.queries.isEmpty then (Batch.decode? input).map Text.lines
  else some arguments.queries

structure Result where
  messages : List Message
  exitCode : Nat

def failed (messages : List Message) (text : Text) : Result :=
  ⟨messages ++ [.error ("Error: ".toList ++ text)], 1⟩

def runQueries (compiler : Compiler) (queries : List Text) (before : List Message) : Result :=
  let outcomes := Batch.run compiler queries
  let failures := Batch.failures outcomes
  let messages := before ++ outcomes.flatMap outcomeMessages
  if failures = 0 then ⟨messages, 0⟩
  else
    let summary := Numeral.ofNat failures ++ " queries failed to translate".toList
    ⟨messages ++ [.detail summary], 1⟩

/-- The whole run of the program after its arguments are read. -/
def run (cause : LoadError → Text) (files : Files) (input : ByteArray) (arguments : Arguments) :
    Result :=
  match setUp files arguments with
  | (messages, .error error) => failed messages (error.chain cause)
  | (messages, .ok compiler) =>
    match queriesOf arguments input with
    | none => failed messages (unreadableInput ++ ": stream did not contain valid UTF-8".toList)
    | some queries => runQueries compiler queries messages

/-- The line of a message on the output. -/
def Message.outputLine : Message → Text
  | output text => Batch.line text
  | _ => []

/-- The line of a message on the error output. -/
def Message.errorLine (verbose : Bool) : Message → Text
  | output _ => []
  | error text => Batch.line text
  | warning text => Batch.line ("[WARN] ".toList ++ text)
  | detail text => if verbose then Batch.line ("[DEBUG] ".toList ++ text) else []

def Result.output (result : Result) : Text := result.messages.flatMap Message.outputLine

def Result.errors (verbose : Bool) (result : Result) : Text :=
  result.messages.flatMap (Message.errorLine verbose)

def versionText : Text := "cohql2redis 0.4.1\n".toList

/-- The exit code of a run that does not start. -/
def Refusal.exitCode : Refusal → Nat
  | help | version => 0
  | _ => 2

end FilterQuery.CommandLine

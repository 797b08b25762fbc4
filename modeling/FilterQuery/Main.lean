import FilterQuery.CommandLine.Run

/-!
# Entry point

Reads the arguments, the settings file and the input, and writes what the program has to say.
-/

namespace FilterQuery.CommandLine

def helpText : Text :=
  ("Translate SQL-style filter conditions into RediSearch queries\n\n" ++
    "Usage: cohql2redis [OPTIONS] [QUERIES]...\n\n" ++
    "Options:\n" ++
    "  -c, --config <CONFIG>    YAML or JSON file with fields and options\n" ++
    "  -f, --field <NAME=TYPE>  Register or override a field type\n" ++
    "      --coalesce           Merge same-field tag alternatives into one clause\n" ++
    "      --keep-parens        Keep parentheses that wrap the whole query\n" ++
    "  -v, --verbose            Enable debug logging\n" ++
    "  -h, --help               Print help\n" ++
    "  -V, --version            Print version\n").toList

def Refusal.text : Refusal → Text
  | unknownArgument => "error: unexpected argument found\n".toList
  | argumentConflict => "error: an argument cannot be used multiple times\n".toList
  | invalidValue => "error: a value is required for an option or is not valid for it\n".toList
  | tooManyValues => "error: unexpected value for a flag\n".toList
  | help => helpText
  | version => versionText

/-- The cause of a failed load, in words. -/
def LoadError.cause : LoadError → Text
  | unreadable _ => "the file cannot be read".toList
  | unusable _ (.fieldType name) => FieldType.invalidName name
  | unusable _ .malformed => "the file does not hold settings".toList

/-- The files of a run: the one that the arguments name, if it can be read. -/
def readFiles (arguments : Arguments) : IO Files := do
  match arguments.config with
  | none => return fun _ => none
  | some path =>
    let content ← (IO.FS.readFile (String.ofList path)).toBaseIO
    match content with
    | .ok text => return fun p => if p = path then some text.toList else none
    | .error _ => return fun _ => none

/-- Everything on an input stream. -/
partial def readAll (stream : IO.FS.Stream) (before : ByteArray) : IO ByteArray := do
  let chunk ← stream.read 65536
  if chunk.isEmpty then return before else readAll stream (before ++ chunk)

def readInput (arguments : Arguments) : IO ByteArray := do
  if arguments.queries.isEmpty then readAll (← IO.getStdin) .empty else return .empty

def write (stream : IO.FS.Stream) (text : Text) : IO Unit := do
  stream.putStr (String.ofList text)
  stream.flush

def refuse (refusal : Refusal) : IO UInt32 := do
  let stream ← if refusal.exitCode = 0 then IO.getStdout else IO.getStderr
  write stream refusal.text
  return refusal.exitCode.toUInt32

def start (arguments : Arguments) : IO UInt32 := do
  let files ← readFiles arguments
  let input ← readInput arguments
  let result := run LoadError.cause files input arguments
  write (← IO.getStdout) result.output
  write (← IO.getStderr) (result.errors arguments.verbose)
  return result.exitCode.toUInt32

end FilterQuery.CommandLine

def main (args : List String) : IO UInt32 :=
  match FilterQuery.CommandLine.Arguments.read (args.map String.toList) with
  | .error refusal => FilterQuery.CommandLine.refuse refusal
  | .ok arguments => FilterQuery.CommandLine.start arguments

import SqlQuery.CommandLine.Arguments
import SqlQuery.CommandLine.Host
import SqlQuery.Compile
import SqlQuery.Json.Printer
import SqlQuery.Query.Encode
import SqlQuery.Query.Text

/-!
# Running a command line

* `Value.ofArgument` — the value that an argument of a procedure stands for;
* `showStatement`, `showVersion` — what is printed;
* `run` — a whole command line on a host: the configuration is read first, whatever the command is.
-/

namespace SqlQuery

open SqlQuery.Number SqlQuery.Text

/-- The value that an argument stands for: an integer of 64 bits, else a double, else a word for a
truth value or for null, else the text itself. -/
def Value.ofArgument (arg : String) : Value :=
  match (integer? arg.toList).filter fitsInt64 with
  | some n => .int n
  | none =>
    match floatText? arg.toList with
    | some x => .float x
    | none =>
      if arg = "true" then .bool true
      else if arg = "false" then .bool false
      else if sameLetters arg "null" then .null
      else .string arg

namespace CommandLine

/-- What a run leaves behind. -/
structure Outcome where
  code : Nat := 0
  stdout : String := ""
  stderr : String := ""

/-- The name and the release of the program. -/
def release : String := "fbdialect 0.3.0"

/-- The configuration file in a directory of configurations. -/
def configFile (home : String) : String :=
  home ++ "/firebird-dialect/config.toml"

/-- A failed run. -/
def failed (message : String) : Outcome :=
  { code := 1, stderr := "Error: " ++ message ++ "\n" }

/-- A run that was not asked for properly, or that only shows something. -/
def halted : Halt → Outcome
  | .usage => { code := 2 }
  | .help => {}
  | .version => { stdout := release ++ "\n" }

/-! ### What is printed -/

/-- A list of parameters, numbered from an index. -/
def showParams (index : Nat) : List Value → String
  | [] => ""
  | v :: vs => "  ?" ++ toString index ++ " = " ++ v.text ++ "\n" ++ showParams (index + 1) vs

/-- A statement in a format. -/
def showStatement (format : OutputFormat) (s : Statement) : String :=
  match format with
  | .json => s.encode.pretty ++ "\n"
  | .text =>
    "SQL:\n  " ++ s.sql ++ "\n" ++
      if s.params.isEmpty then "" else "\nBindings:\n" ++ showParams 1 s.params

/-- A version and its paging syntax in a format. -/
def showVersion (format : OutputFormat) (v : EngineVersion) : String :=
  let paging := Paging.ofVersion v
  match format with
  | .json =>
    let number (n : UInt32) : Json := .int n.toNat
    (Json.object
      [⟨"legacy_paging", .bool paging.isLegacy⟩,
        ⟨"version", .object
          [⟨"major", number v.major⟩, ⟨"minor", number v.minor⟩, ⟨"patch", number v.patch⟩]⟩]).compact ++
      "\n"
  | .text => "Version: " ++ String.ofList v.text ++ "\nPaging: " ++ paging.text ++ "\n"

/-- The output of something that may fail. -/
def printed (show? : α → String) : Except Error α → Outcome
  | .ok a => { stdout := show? a }
  | .error e => failed e.message

/-! ### The commands -/

/-- The paging syntax to compile for; modern if no version is given. -/
def pagingFor (config : Config) (engineVersion : Option String) : Except Error Paging := do
  let version ← match engineVersion with
    | some text => some <$> Config.readVersion text
    | none => config.version?
  return (version.map Paging.ofVersion).getD .modern

/-- The outcome of compiling the text that was read. -/
def compileText (format : OutputFormat) (paging : Paging) (text : String) : Outcome :=
  match Query.ofText? text with
  | none => failed "query description is not valid JSON"
  | some q => printed (showStatement format) (q.compile paging)

variable {m : Type → Type} [Monad m]

/-- The text of a file, or of the input for `-`, and its name in messages. -/
def readSource (host : Host m) (path : String) : m (Except FileFault String × String) := do
  if path = "-" then return (← host.readInput, "stdin") else return (← host.readFile path, path)

/-- The configuration: from the file named on the command line or by the environment, else from the
common one if there is one. Nothing if the file cannot be read or has no configuration. -/
def loadConfig (host : Host m) (env : Environment) (path : Option String) : m (Option Config) := do
  match path <|> env.configPath with
  | some path => return (← host.readFile path).toOption.bind Config.ofText?
  | none =>
    match env.configHome with
    | none => return some {}
    | some home =>
      match ← host.readFile (configFile home) with
      | .ok text => return Config.ofText? text
      | .error fault => return if fault.isAbsence then some {} else none

/-- A command under its configuration. -/
def Command.run (host : Host m) (config : Config) (format : OutputFormat) : Command → m Outcome
  | .compile input engineVersion => do
    match pagingFor config engineVersion with
    | .error e => return failed e.message
    | .ok paging =>
      match ← readSource host input with
      | (.ok text, _) => return compileText format paging text
      | (.error fault, name) => return failed ("reading " ++ name ++ ": " ++ fault.message)
  | .procedure name args =>
    return printed (showStatement format) (compileProcedure .modern name (args.map Value.ofArgument))
  | .version banner =>
    return printed (showVersion format) (EngineVersion.ofBanner banner)

/-- A whole command line. -/
def run (host : Host m) (env : Environment) (args : List String) : m Outcome := do
  match Invocation.ofArguments args with
  | .error halt => return halted halt
  | .ok i =>
    if i.config.isNone && env.configPath == some "" then return halted .usage
    else
      match ← loadConfig host env i.config with
      | none => return failed ("loading configuration: " ++ Error.config.message)
      | some config => i.command.run host config (i.format.getD config.output)

end CommandLine

end SqlQuery

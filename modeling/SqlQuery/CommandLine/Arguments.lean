import SqlQuery.Config

/-!
# Arguments

The grammar of the command line: options with a value before and after the name of a command, and
operands. A lone `-` is an operand, and everything after `--` is one.

* `Argument.of` — what a single argument is;
* `OptionSpec`, `Spec`, `scan` — options and operands told apart, from the left;
* `Invocation.ofArguments` — what a whole command line asks for.
-/

namespace SqlQuery.CommandLine

/-! ### Single arguments -/

/-- What an argument is by its look. -/
inductive Argument where
  /-- The mark `--`, after which there are only operands. -/
  | escape
  /-- A long option, `--name` or `--name=value`. -/
  | long (name : String) (value : Option String)
  /-- A short option, `-n`, `-nvalue` or `-n=value`. -/
  | short (letter : Char) (value : Option String)
  | operand
deriving DecidableEq

/-- The value behind the first `=`, if there is one. -/
def afterEquals : List Char → Option String
  | [] => none
  | '=' :: v => some (String.ofList v)
  | _ :: cs => afterEquals cs

def Argument.of (s : String) : Argument :=
  match s.toList with
  | ['-', '-'] => .escape
  | '-' :: '-' :: cs => .long (String.ofList (cs.takeWhile (· ≠ '='))) (afterEquals cs)
  | ['-', c] => .short c none
  | '-' :: c :: '=' :: v => .short c (some (String.ofList v))
  | '-' :: c :: v => .short c (some (String.ofList v))
  | _ => .operand

/-! ### Scanning -/

/-- Why nothing is run. -/
inductive Halt where
  | usage | help | version
deriving DecidableEq

/-- An option that takes a value. -/
structure OptionSpec where
  name : String
  letter : Char
  accepts : String → Bool

/-- What a part of the command line may hold. -/
structure Spec where
  options : List OptionSpec
  /-- Whether the version can be asked for. -/
  showsVersion : Bool
  /-- Whether the first operand ends the part. -/
  endsAtOperand : Bool
  /-- How many operands the part may have; `none` for any number. -/
  operandLimit : Option Nat := none

/-- What was found so far. -/
structure Scan where
  values : List (String × String) := []
  operands : List String := []
  /-- The arguments from the operand that ended the part. -/
  rest : List String := []

/-- The value of an option. -/
def Scan.value? (s : Scan) (name : String) : Option String :=
  s.values.lookup name

/-- The scan with one more value; an option may be given once, and its value has to be accepted. -/
def Scan.add (s : Scan) (o : OptionSpec) (value : String) : Except Halt Scan :=
  if (s.value? o.name).isSome || !o.accepts value then .error .usage
  else .ok { s with values := s.values ++ [(o.name, value)] }

/-- The scan with one more operand, unless it has as many as it may. -/
def Scan.addOperand (limit : Option Nat) (s : Scan) (operand : String) : Except Halt Scan :=
  if limit.any (· ≤ s.operands.length) then .error .usage
  else .ok { s with operands := s.operands ++ [operand] }

/-- The option that an argument begins, with the value that is attached to it. -/
def Spec.option (spec : Spec) : Argument → Except Halt (OptionSpec × Option String)
  | .long name value =>
    match spec.options.find? (·.name == name) with
    | some o => .ok (o, value)
    | none =>
      if name = "help" ∧ value = none then .error .help
      else if name = "version" ∧ value = none ∧ spec.showsVersion then .error .version
      else .error .usage
  | .short letter value =>
    match spec.options.find? (·.letter == letter) with
    | some o => .ok (o, value)
    | none =>
      if letter = 'h' then .error .help
      else if letter = 'V' ∧ spec.showsVersion then .error .version
      else .error .usage
  | _ => .error .usage

/-- Takes arguments from the left; the first that is refused decides. -/
def scan (spec : Spec) (s : Scan) : List String → Except Halt Scan
  | [] => .ok s
  | a :: rest =>
    match Argument.of a with
    | .escape =>
      if spec.endsAtOperand then .ok s else rest.foldlM (Scan.addOperand spec.operandLimit) s
    | .operand =>
      if spec.endsAtOperand then .ok { s with rest := a :: rest }
      else
        match s.addOperand spec.operandLimit a with
        | .error halt => .error halt
        | .ok s => scan spec s rest
    | argument =>
      match spec.option argument with
      | .error halt => .error halt
      | .ok (o, some value) =>
        match s.add o value with
        | .error halt => .error halt
        | .ok s => scan spec s rest
      | .ok (o, none) =>
        match rest with
        | [] => .error .usage
        | value :: rest =>
          if Argument.of value = .operand then
            match s.add o value with
            | .error halt => .error halt
            | .ok s => scan spec s rest
          else .error .usage

/-! ### Commands -/

/-- What to do. -/
inductive Command where
  /-- Compile the description in a file, or in the input for `-`. -/
  | compile (input : String) (engineVersion : Option String)
  | procedure (name : String) (args : List String)
  /-- Tell what a banner means. -/
  | version (banner : String)

/-- A command with the options before it. -/
structure Invocation where
  config : Option String
  format : Option OutputFormat
  command : Command

/-- The options before a command. -/
def Invocation.spec : Spec :=
  { options :=
      [{ name := "config", letter := 'c', accepts := fun s => s ≠ "" },
        { name := "format", letter := 'f', accepts := fun s => (OutputFormat.ofTag? s).isSome }]
    showsVersion := true
    endsAtOperand := true }

/-- The options of a command, and how many operands it may have. -/
def Command.spec (options : List OptionSpec) (operandLimit : Option Nat) : Spec :=
  { options, showsVersion := false, endsAtOperand := false, operandLimit }

def Command.names : List String := ["compile", "procedure", "version"]

/-- A command by its name and its arguments. -/
def Command.ofArguments (name : String) (args : List String) : Except Halt Command :=
  match name with
  | "compile" => do
    let version : OptionSpec := { name := "engine-version", letter := 'e', accepts := fun _ => true }
    let s ← scan (spec [version] (some 1)) {} args
    match s.operands with
    | [input] => return .compile input (s.value? "engine-version")
    | _ => .error .usage
  | "procedure" => do
    let s ← scan (spec [] none) {} args
    match s.operands with
    | name :: args => return .procedure name args
    | [] => .error .usage
  | "version" => do
    let s ← scan (spec [] (some 1)) {} args
    match s.operands with
    | [banner] => return .version banner
    | _ => .error .usage
  | "help" => .error (if args.all (Command.names.contains ·) && args.length ≤ 1 then .help else .usage)
  | _ => .error .usage

/-- What a command line asks for. -/
def Invocation.ofArguments (args : List String) : Except Halt Invocation := do
  let s ← scan spec {} args
  match s.rest with
  | [] => .error .usage
  | name :: args =>
    let command ← Command.ofArguments name args
    return { config := s.value? "config", format := (s.value? "format").bind OutputFormat.ofTag?, command }

end SqlQuery.CommandLine

import SqlQuery.EngineVersion
import SqlQuery.Error
import SqlQuery.Toml.Reader

/-!
# Configuration

* `OutputFormat` — how the command line shows a statement;
* `Config.ofText?` — the configuration in a TOML document; keys that mean nothing here are passed over;
* `Config.version?` — the configured version of the server, where there is one.
-/

namespace SqlQuery

/-- How a statement is shown. -/
inductive OutputFormat where
  | text | json
deriving DecidableEq

namespace OutputFormat

def all : List OutputFormat := [text, json]

def tag : OutputFormat → String
  | text => "text"
  | json => "json"

/-- The format with this tag. -/
def ofTag? (s : String) : Option OutputFormat :=
  all.find? fun f => f.tag == s

/-- The format that a value names: as a string, or as the one key of a table whose value is empty. -/
def ofToml? : Toml → Option OutputFormat
  | .string s => ofTag? s
  | .table _ [⟨tag, .array []⟩] => ofTag? tag
  | .table _ [⟨tag, .table _ []⟩] => ofTag? tag
  | _ => none

end OutputFormat

/-- What a configuration file can set. -/
structure Config where
  /-- The version to compile for when no server is asked, as a number or as a banner. -/
  engineVersion : Option String := none
  output : OutputFormat := .text

namespace Config

/-- The configuration in a document. -/
def ofText? (text : String) : Option Config := do
  let entries ← Toml.read? text
  let engineVersion ← match Toml.find? "engine_version" entries with
    | none => some none
    | some (.string s) => some (some s)
    | some _ => none
  let output ← match Toml.find? "output" entries with
    | none => some .text
    | some t => OutputFormat.ofToml? t
  return { engineVersion, output }

/-- The version that a configured text tells. -/
def readVersion (text : String) : Except Error EngineVersion :=
  match EngineVersion.ofText? text with
  | some v => .ok v
  | none => .error (.versionUnparseable (Text.trimmed text))

/-- The configured version, where there is one. -/
def version? (c : Config) : Except Error (Option EngineVersion) :=
  match c.engineVersion with
  | none => .ok none
  | some text => do return some (← readVersion text)

end Config

end SqlQuery

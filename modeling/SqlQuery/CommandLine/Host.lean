/-!
# Hosts

What the command line needs of the system it runs on.

* `FileFault` — why a file cannot be read, with the system's wording;
* `Host` — reading files and the input, in any monad;
* `FileTree` — files kept in memory, as a host without effects; `FileTree.resolve` walks a path name by
  name, as a system does.
-/

namespace SqlQuery.CommandLine

/-- Why a file cannot be read. -/
inductive FileFault where
  | notFound | notADirectory | isADirectory | nameTooLong | notText
  | other (message : String)
deriving DecidableEq

namespace FileFault

/-- The wording of a fault. -/
def message : FileFault → String
  | notFound => "No such file or directory (os error 2)"
  | notADirectory => "Not a directory (os error 20)"
  | isADirectory => "Is a directory (os error 21)"
  | nameTooLong => "File name too long (os error 36)"
  | notText => "stream did not contain valid UTF-8"
  | other message => message

/-- Whether the fault means that there is no such file. -/
def isAbsence : FileFault → Bool
  | notFound | notADirectory | nameTooLong => true
  | _ => false

end FileFault

/-- A system to run on. -/
structure Host (m : Type → Type) where
  readFile : String → m (Except FileFault String)
  readInput : m (Except FileFault String)

/-- The settings that come from outside the command line. -/
structure Environment where
  /-- The file named by the environment. -/
  configPath : Option String := none
  /-- The directory of all configurations. -/
  configHome : Option String := none

/-! ### Files in memory -/

/-- Files and directories, each by the names on the way to it from the root. A directory on the way to
another entry need not be listed. -/
structure FileTree where
  files : List (List String × String)
  directories : List (List String)
  /-- The directory from which paths without a slash in front start. -/
  workDir : List String
  input : String

/-- The names on a path. A slash at its end asks for a directory, as a dot would. -/
def pathNames (path : String) : List String :=
  ((path.splitOn "/").filter (· ≠ "")) ++ if path.endsWith "/" then ["."] else []

/-- The longest name of an entry, in bytes. -/
def nameLimit : Nat := 255

/-- The longest path, in bytes. -/
def pathLimit : Nat := 4095

namespace FileTree

/-- Whether the names lead to a directory. -/
def isDirectory (t : FileTree) (place : List String) : Bool :=
  place.isPrefixOf t.workDir || t.directories.any (place.isPrefixOf ·) ||
    t.files.any fun (names, _) => place.isPrefixOf names && place != names

/-- Whether the names lead to anything. -/
def holds (t : FileTree) (place : List String) : Bool :=
  t.isDirectory place || (t.files.lookup place).isSome

/-- One name further on a path. Only a directory has names in it, and the root is its own parent. -/
def step (t : FileTree) (place : List String) (name : String) : Except FileFault (List String) :=
  if !t.isDirectory place then .error .notADirectory
  else if name = "." then .ok place
  else if name = ".." then .ok place.dropLast
  else if nameLimit < name.utf8ByteSize then .error .nameTooLong
  else if t.holds (place ++ [name]) then .ok (place ++ [name])
  else .error .notFound

/-- Where a path leads. -/
def resolve (t : FileTree) (path : String) : Except FileFault (List String) :=
  if path = "" then .error .notFound
  else if pathLimit < path.utf8ByteSize then .error .nameTooLong
  else (pathNames path).foldlM t.step (if path.startsWith "/" then [] else t.workDir)

/-- The file at a path. -/
def readFile (t : FileTree) (path : String) : Except FileFault String := do
  let place ← t.resolve path
  match t.files.lookup place with
  | some text => return text
  | none => .error .isADirectory

/-- The usual directories under the root. -/
def usualDirectories : List String :=
  ["bin", "boot", "dev", "etc", "home", "lib", "media", "mnt", "opt", "proc", "root", "run", "sbin", "srv",
    "sys", "tmp", "usr", "var"]

/-- A usual system with these files, by their paths from the working directory. The empty device and
the input are files too. -/
def ofFiles (files : List (String × String)) (input : String) : FileTree :=
  let workDir := ["tmp", "work"]
  { files := (["dev", "null"], "") :: (["dev", "stdin"], input) ::
      files.map fun (path, text) => (workDir ++ (pathNames path).filter (· ≠ "."), text)
    directories := usualDirectories.map ([·])
    workDir, input }

/-- The tree as a host. -/
def host (t : FileTree) : Host Id where
  readFile := t.readFile
  readInput := .ok t.input

end FileTree

end SqlQuery.CommandLine

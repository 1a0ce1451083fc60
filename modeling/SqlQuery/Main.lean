import SqlQuery.CommandLine.Run

/-!
# The program

The command line on a real system: files, the input, and the environment.
-/

namespace SqlQuery.CommandLine

/-- The fault that a failure to read means. A directory can be opened, so a failure with the name of a
file is not about reading from one. -/
def FileFault.ofFailure : IO.Error → FileFault
  | .noFileOrDirectory .. => .notFound
  | .inappropriateType (some _) .. => .notADirectory
  | .inappropriateType none .. => .isADirectory
  | .invalidArgument (some _) .. => .nameTooLong
  | .permissionDenied .. => .other "Permission denied (os error 13)"
  | e => .other (toString e)

/-- The text of some bytes. -/
def decodeText (bytes : ByteArray) : Except FileFault String :=
  match String.fromUTF8? bytes with
  | some text => .ok text
  | none => .error .notText

/-- All bytes of a stream. -/
partial def readAll (stream : IO.FS.Stream) (read : ByteArray) : IO ByteArray := do
  let chunk ← stream.read 65536
  if chunk.isEmpty then return read else readAll stream (read ++ chunk)

/-- The system that the program runs on. -/
def system : Host IO where
  readFile path := do
    try return decodeText (← IO.FS.readBinFile path)
    catch e => return .error (.ofFailure e)
  readInput := do
    try return decodeText (← readAll (← IO.getStdin) .empty)
    catch e => return .error (.ofFailure e)

/-- The directory of all configurations. -/
def configHome : IO (Option String) := do
  match ← IO.getEnv "XDG_CONFIG_HOME" with
  | some home => if home.startsWith "/" then return some home else fromHome
  | none => fromHome
where
  fromHome : IO (Option String) := do
    return (← IO.getEnv "HOME").map (· ++ "/.config")

end SqlQuery.CommandLine

open SqlQuery.CommandLine

/-- Runs the command line and exits with its status. -/
def main (args : List String) : IO UInt32 := do
  let env : Environment := { configPath := ← IO.getEnv "FBDIALECT_CONFIG", configHome := ← configHome }
  let outcome ← run system env args
  IO.print outcome.stdout
  IO.eprint outcome.stderr
  return outcome.code.toUInt32

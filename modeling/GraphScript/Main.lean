import GraphScript.Command.Program

/-!
# Main — the program
-/

namespace GraphScript.Main

/-- The cause of a failed operation. -/
def cause : IO.Error → DiskError
  | .alreadyExists _ _ _ => .alreadyExists
  | .otherError code details => .system code.toNat details
  | .resourceBusy code details => .system code.toNat details
  | .resourceVanished code details => .system code.toNat details
  | .unsupportedOperation code details => .system code.toNat details
  | .hardwareFault code details => .system code.toNat details
  | .unsatisfiedConstraints code details => .system code.toNat details
  | .illegalOperation code details => .system code.toNat details
  | .protocolError code details => .system code.toNat details
  | .timeExpired code details => .system code.toNat details
  | .interrupted _ code details => .system code.toNat details
  | .noFileOrDirectory _ _ _ => .notFound
  | .invalidArgument _ code details => .system code.toNat details
  | .permissionDenied _ code details => .system code.toNat details
  | .resourceExhausted _ code details => .system code.toNat details
  | .inappropriateType _ code details => .system code.toNat details
  | .noSuchThing _ code details => .system code.toNat details
  | .unexpectedEof => .notText
  | .userError _ => .notText

/-- Runs an operation and keeps the cause if it fails. -/
def attempt {α : Type} (x : IO α) : IO (Except DiskError α) := do
  try
    return .ok (← x)
  catch e =>
    return .error (cause e)

/-- The text of a file. -/
def readText (path : String) : IO (Except DiskError String) := do
  match ← attempt (IO.FS.readBinFile path) with
  | .error e => return .error e
  | .ok bytes => return (String.fromUTF8? bytes).elim (.error .notText) .ok

/-- Whether a path leads to a directory. -/
def hasDirectory (path : String) : IO Bool := do
  let place := (← IO.currentDir) / path
  place.isDir

/-- The files of the system. -/
def disk : Disk IO where
  read := readText
  write path text := attempt (IO.FS.writeFile path text)
  makeDirectory path := attempt (IO.FS.createDir path)
  hasDirectory := hasDirectory

/-- The environment variables that the program knows. -/
def environment : IO (String → Option String) := do
  let build ← IO.getEnv Layer.buildName
  let limit ← IO.getEnv Layer.limitName
  return fun name =>
    if name = Layer.buildName then build else if name = Layer.limitName then limit else none

end GraphScript.Main

open GraphScript Command in
/-- Reads the command line, carries it out and prints what comes of it. -/
def main (args : List String) : IO UInt32 := do
  match Program.request args with
  | .error _ =>
    IO.eprint Program.overview
    return 2
  | .ok r =>
    let e ← Program.perform Main.disk (← Main.environment) r
    IO.print e.stdout
    IO.eprint e.stderr
    return UInt32.ofNat e.exitCode

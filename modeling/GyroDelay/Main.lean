import GyroDelay.Command.Run

/-!
# The program

Gathers the environment and the files that a command line needs, carries the command line
out and writes its outcome. No connections can be taken from here: a server that is to be
started ends in a failure that says so.
-/

namespace GyroDelay.Program

open Command

/-- The bytes at a path. -/
def readPath (path : String) : IO (Except FileFault (List UInt8)) := do
  try
    return .ok (← IO.FS.readBinFile path).toList
  catch fault =>
    return .error (match fault with
      | .noFileOrDirectory .. => .missing
      | .inappropriateType _ code _ => if code = 21 then .directory else .notDirectory
      | .invalidArgument _ code details => if code = 36 then .nameTooLong else .other details
      | fault => .other (toString fault))

/-- The content of paths; all others are missing. -/
def readPaths (paths : List String) : IO Files := do
  let contents ← paths.mapM fun path => do return (path, ← readPath path)
  return ⟨fun path => ((contents.find? fun c => c.1 == path).map (·.2)).getD (.error .missing)⟩

/-- The values of variables that have one. -/
def readVariables (names : List String) : IO Environment := do
  let entries ← names.mapM fun name => do return (← IO.getEnv name).map fun value => (name, value)
  return ⟨entries.filterMap id⟩

/-- The environment, with the variables that the file beside the program may refer to. -/
def readEnvironment (files : Files) : IO Environment :=
  match files.read environmentFile with
  | .ok content => readVariables (envNames ++ Environment.mentioned content)
  | .error _ => readVariables envNames

/-- The files that a command line needs. -/
def readFiles (files : Files) (env : Environment) (arguments : List String) : IO Files :=
  match (environment? files env).map (ofArguments · arguments) with
  | some (.ok command) => readPaths (environmentFile :: command.paths)
  | _ => return files

/-- Writes an outcome and returns its status. -/
def write (outcome : Outcome) : IO UInt32 := do
  (← IO.getStdout).putStr outcome.output
  (← IO.getStderr).putStr outcome.errors
  return outcome.status.toUInt32

end GyroDelay.Program

open GyroDelay in
/-- Carries out a command line. -/
def main (arguments : List String) : IO UInt32 := do
  let beside ← Program.readPaths [Command.environmentFile]
  let env ← Program.readEnvironment beside
  let files ← Program.readFiles beside env arguments
  match Command.run files env arguments with
  | .finished outcome => Program.write outcome
  | .listens _ =>
    Program.write (.failure ⟨"Sync server failed", ["connections are not available"]⟩)

import GyroDelay.Command.Estimate
import GyroDelay.Command.Serve
import GyroDelay.Command.Validate

/-!
# Running a command line

A command line ends in an outcome or, if it asks for a server whose configuration is valid,
in that server.
-/

namespace GyroDelay.Command

/-- What becomes of a command line. -/
inductive Result where
  /-- The command is finished. -/
  | finished (outcome : Outcome)
  /-- A server is to be started. -/
  | listens (listener : Listener)

/-- Carries out a command. -/
def perform (files : Files) : Command → Result
  | .estimate o => .finished (.ofResult (o.run files))
  | .validate o => .finished (o.run files)
  | .serve o =>
    match o.listener files with
    | .ok listener => .listens listener
    | .error f => .finished (.failure f)

/-- The files that a command reads. -/
def paths : Command → List String
  | .estimate o => o.config.toList ++ [o.first, o.second]
  | .serve o => o.config.toList
  | .validate o => [o.config]

/-- The name of the program. -/
def programName : String := "gyro-syncer"

/-- The version of the program. -/
def version : String := "0.1.0"

/-- One line on how a command, or the program, is called. -/
def usage : Option String → String
  | none => s!"Usage: {programName} [OPTIONS] <COMMAND>\n"
  | some command => s!"Usage: {programName} {command} [OPTIONS]\n"

/-- The outcome of a command line that asks for no command. -/
def stopped : Stop → Outcome
  | .help command => .success (usage command)
  | .version => .success (programName ++ " " ++ version ++ "\n")
  | .refused fault => ⟨2, "", "error: " ++ fault.message ++ "\n\n" ++ usage none⟩

/-- The path of the file that sets further variables of the environment. -/
def environmentFile : String := ".env"

/-- The environment together with what the file beside the program sets, if it can hold that. -/
def environment? (files : Files) (env : Environment) : Option Environment :=
  match files.read environmentFile with
  | .ok content => env.withFile? content
  | .error _ => some env

/-- Carries out a command line. -/
def run (files : Files) (env : Environment) (arguments : List String) : Result :=
  match environment? files env with
  | none => .finished (.aborted s!"a value in {environmentFile} holds the character NUL")
  | some env =>
    match ofArguments env arguments with
    | .ok command => command.perform files
    | .error stop => .finished (stopped stop)

end GyroDelay.Command

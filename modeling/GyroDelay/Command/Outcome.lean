import GyroDelay.Fault
import GyroDelay.Text.Lines

/-!
# Outcomes of commands

What a command writes and the status with which it ends.
-/

namespace GyroDelay.Command

/-- What a command leaves behind. -/
structure Outcome where
  /-- The status: 0 for success, 1 for a failure, 2 for a refused command line, 101 for a program
  that is aborted. -/
  status : UInt8
  /-- What is written to the standard output. -/
  output : String
  /-- What is written to the standard error. -/
  errors : String
deriving Repr, DecidableEq

/-- Why a command fails: what could not be done, and the chain of causes behind it. -/
structure Failure where
  /-- What could not be done. -/
  what : String
  /-- The causes, the nearest one first. -/
  causes : List String
deriving Repr, DecidableEq

namespace Failure

/-- A fault behind something that could not be done. -/
def ofFault (what : String) (fault : Fault Float) : Failure :=
  ⟨what, fault.message :: fault.source?.toList⟩

/-- A text whose lines after the first one are moved to the right by `width` blanks. -/
def hanging (width : Nat) (s : String) : String :=
  ("\n" ++ String.ofList (List.replicate width ' ')).intercalate
    ((Text.fields '\n' s.toList).map String.ofList)

/-- Causes with their numbers, from `index` on. -/
def numbered (index : Nat) : List String → String
  | [] => ""
  | cause :: rest =>
    "    " ++ toString index ++ ": " ++ hanging 7 cause ++ "\n" ++ numbered (index + 1) rest

/-- The text of a failure. Causes are numbered if there are several. -/
def render (f : Failure) : String :=
  let causes := match f.causes with
    | [] => ""
    | [cause] => "\nCaused by:\n    " ++ hanging 4 cause ++ "\n"
    | causes => "\nCaused by:\n" ++ numbered 0 causes
  "Error: " ++ f.what ++ "\n" ++ causes

end Failure

/-- Says what could not be done if there is a fault. -/
def attempt {β : Type} (what : String) (result : Except (Fault Float) β) : Except Failure β :=
  result.mapError (Failure.ofFault what)

namespace Outcome

/-- A success with its output. -/
def success (output : String) : Outcome := ⟨0, output, ""⟩

/-- A failure. -/
def failure (f : Failure) : Outcome := ⟨1, "", f.render⟩

/-- The outcome of a program that is aborted before it reads its command line. -/
def aborted (reason : String) : Outcome := ⟨101, "", reason ++ "\n"⟩

/-- The outcome of a command that writes its answer only when it succeeds. -/
def ofResult : Except Failure String → Outcome
  | .ok output => success output
  | .error f => failure f

end Outcome

end GyroDelay.Command

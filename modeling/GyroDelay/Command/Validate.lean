import GyroDelay.Command.Basic
import GyroDelay.Command.Outcome
import GyroDelay.Config.Format
import GyroDelay.Config.Warning

/-!
# The command `validate`
-/

namespace GyroDelay.Command

/-- What is found out about a configuration: the configuration, or what is wrong with it. -/
structure Verdict where
  /-- The path of the configuration. -/
  path : String
  /-- The valid configuration or the reason why there is none. -/
  result : Except String Config

namespace Verdict

/-- Checks the configuration at a path. -/
def ofPath (files : Files) (path : String) : Verdict :=
  { path := path
    result :=
      if files.holds path then (Config.loadFile files path).mapError Fault.message
      else .error s!"File not found: {path}" }

/-- The settings that are shown of a valid configuration. -/
def renderSettings (c : Config) : String :=
  "\n  Accuracy: " ++ Decimal.display c.estimator.accuracy ++ " s\n" ++
    "  Resample: " ++ (if c.estimator.resample then "true" else "false") ++ "\n" ++
    "  Complex roots: " ++ c.estimator.rootPolicy.title ++ "\n" ++
    "  Timestamp unit: " ++ c.unit.title ++ "\n" ++
    "  Server: " ++ c.server.host ++ ":" ++ toString c.server.port.toNat ++ "\n" ++
    match c.server.metricsPort with
    | none => ""
    | some port => "  Metrics port: " ++ toString port.toNat ++ "\n"

/-- The hints on a configuration as text. -/
def renderWarnings (warnings : List Config.Warning) : String :=
  if warnings.isEmpty then ""
  else "\n⚠ Warnings:\n" ++ String.join (warnings.map fun w => "  - " ++ w.message ++ "\n")

/-- A verdict as text. -/
def render (v : Verdict) : String :=
  match v.result with
  | .ok c =>
    "✓ Configuration is valid: " ++ v.path ++ "\n" ++ renderSettings c ++
      renderWarnings c.warnings
  | .error reason =>
    "✗ Configuration is invalid: " ++ v.path ++ "\n\n  Error: " ++ reason ++ "\n"

/-- A verdict as a JSON document. Hints are left out if there are none. -/
def document (v : Verdict) : Json.Document :=
  let path := ("config_path", Json.Document.text v.path)
  match v.result with
  | .ok c =>
    let hints := c.warnings.map fun w => Json.Document.text w.message
    let warnings := if hints.isEmpty then [] else [("warnings", Json.Document.list hints)]
    .record ([("valid", .bool true), path] ++ warnings ++ [("config", Json.configDocument c)])
  | .error reason => .record [("valid", .bool false), path, ("error", .text reason)]

end Verdict

end GyroDelay.Command

namespace GyroDelay.ValidateOptions

open Command

/-- Checks a configuration. An invalid one is a failure, with the reason on the output. -/
def run (files : Files) (o : ValidateOptions) : Outcome :=
  let verdict := Verdict.ofPath files o.config
  let output := if o.json then verdict.document.pretty ++ "\n" else verdict.render
  match verdict.result with
  | .ok _ => .success output
  | .error _ => { Outcome.failure ⟨"Configuration validation failed", []⟩ with output := output }

end GyroDelay.ValidateOptions

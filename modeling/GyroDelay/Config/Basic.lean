import GyroDelay.Config.Tree
import GyroDelay.Estimation.Settings
import GyroDelay.Text.Blank
import GyroDelay.Text.Lines
import GyroDelay.TimeUnit

/-!
# Configurations

The settings of all parts of the program, their defaults, the rules that they have to
fulfil, and how they are read from a tree.
-/

namespace GyroDelay

/-- Where and how the server listens. -/
structure ServerSettings where
  /-- The address to listen on. -/
  host : String
  /-- The port to listen on. -/
  port : UInt16
  /-- The size of the read buffer. -/
  bufferSize : UInt64
  /-- The port that metrics are exported on, if they are. -/
  metricsPort : Option UInt16
  /-- The directory that uploads are saved in, if they are. -/
  saveDir : Option String
  /-- How long an upload may take, in milliseconds. -/
  timeLimit : UInt64
deriving Repr, DecidableEq

/-- A configuration. -/
structure Config where
  /-- How delays are estimated. -/
  estimator : Settings Float
  /-- The unit of recorded timestamps. -/
  unit : TimeUnit
  /-- The server. -/
  server : ServerSettings
deriving Repr

namespace Config

/-- All interfaces, port 9428, a buffer of 2048 bytes and half a minute for an upload. -/
def defaultServer : ServerSettings :=
  { host := "0.0.0.0", port := 9428, bufferSize := 2048, metricsPort := none, saveDir := none
    timeLimit := 30000 }

/-- The configuration of an empty text. -/
def default : Config := ⟨Settings.default, .nanoseconds, defaultServer⟩

end Config

/-- Checks the settings of the estimation. -/
def Settings.validate {α : Type} [Scalar α] (s : Settings α) : Except (Fault α) Unit :=
  if !isAccuracy s.accuracy then .error (.configRule (.accuracy s.accuracy))
  else if s.gridLimit < 2 then .error (.configRule (.gridLimit s.gridLimit.toNat))
  else .ok ()

/-- Checks the settings of the server. -/
def ServerSettings.validate {α : Type} (s : ServerSettings) : Except (Fault α) Unit :=
  if Text.isBlankText s.host then .error (.configRule .host)
  else if s.port = 0 then .error (.configRule .port)
  else if s.bufferSize = 0 then .error (.configRule .bufferSize)
  else if s.timeLimit = 0 then .error (.configRule .timeLimit)
  else if s.metricsPort = some s.port then .error (.configRule (.metricsPort s.port.toNat))
  else .ok ()

namespace Config

/-- Checks a configuration; the first broken rule is reported. -/
def validate (c : Config) : Except (Fault Float) Unit := do
  c.estimator.validate
  c.server.validate

/-- The settings of the estimation in a tree. -/
def settingsOf? (d : Dialect) (t : Tree) : Option (Settings Float) := do
  let base : Settings Float := Settings.default
  match ← d.fields? ["accuracy", "resample", "complex_roots", "max_grid_len"] t with
  | [accuracy, resample, rootPolicy, gridLimit] =>
    return {
      accuracy := ← field? base.accuracy Tree.double? accuracy
      resample := ← field? base.resample Tree.bool? resample
      rootPolicy :=
        ← field? base.rootPolicy (fun t => d.choice? t >>= RootPolicy.ofName?) rootPolicy
      gridLimit := ← field? base.gridLimit Tree.word64? gridLimit }
  | _ => none

/-- The unit of timestamps in a tree. -/
def unitOf? (d : Dialect) (t : Tree) : Option TimeUnit := do
  match ← d.fields? ["timestamp_unit"] t with
  | [unit] => field? .nanoseconds (fun t => d.choice? t >>= TimeUnit.ofName?) unit
  | _ => none

/-- The settings of the server in a tree. -/
def serverOf? (d : Dialect) (t : Tree) : Option ServerSettings := do
  let base := defaultServer
  let names :=
    ["host", "port", "read_buffer_size", "metrics_port", "save_dir", "read_timeout_ms"]
  match ← d.fields? names t with
  | [host, port, bufferSize, metricsPort, saveDir, timeLimit] =>
    return {
      host := ← field? base.host Tree.text? host
      port := ← field? base.port Tree.word16? port
      bufferSize := ← field? base.bufferSize Tree.word64? bufferSize
      metricsPort := ← field? base.metricsPort (Tree.optional? Tree.word16?) metricsPort
      saveDir := ← field? base.saveDir (Tree.optional? Tree.text?) saveDir
      timeLimit := ← field? base.timeLimit Tree.word64? timeLimit }
  | _ => none

/-- The configuration in a tree. -/
def ofTree? (d : Dialect) (t : Tree) : Option Config := do
  match ← d.fields? ["estimator", "input", "server"] t with
  | [estimator, input, server] =>
    return {
      estimator := ← field? default.estimator (settingsOf? d) estimator
      unit := ← field? default.unit (unitOf? d) input
      server := ← field? default.server (serverOf? d) server }
  | _ => none

end Config

end GyroDelay

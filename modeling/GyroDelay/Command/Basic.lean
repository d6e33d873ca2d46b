import GyroDelay.Command.Line
import GyroDelay.Decimal.Reading
import GyroDelay.TimeUnit

/-!
# Commands

The three commands of the program with their options, and how they are read from a command
line: `estimate` reports the delay of two recordings, `serve` takes uploads from devices, and
`validate` checks a configuration.
-/

namespace GyroDelay

/-- The options of `estimate`. -/
structure EstimateOptions where
  /-- The recording of the first device. -/
  first : String
  /-- The recording of the second device. -/
  second : String
  /-- The configuration, if not the default one. -/
  config : Option String
  /-- The accuracy, if not that of the configuration. -/
  accuracy : Option Float
  /-- Whether recordings are taken as they are. -/
  noResample : Bool
  /-- Whether complex roots are an error. -/
  rejectRoots : Bool
  /-- The unit of timestamps, if not that of the configuration. -/
  unit : Option TimeUnit
  /-- Whether the answer is written in JSON. -/
  json : Bool
deriving Repr

/-- The options of `serve`. -/
structure ServeOptions where
  /-- The configuration, if not the default one. -/
  config : Option String
  /-- The host, if not that of the configuration. -/
  host : Option String
  /-- The port, if not that of the configuration. -/
  port : Option UInt16
  /-- The directory of uploads, if not that of the configuration. -/
  saveDir : Option String
  /-- The metrics port, if not that of the configuration. -/
  metricsPort : Option UInt16
  /-- After how many sessions the server stops; 0 for never. -/
  maxSessions : UInt64
deriving Repr

/-- The options of `validate`. -/
structure ValidateOptions where
  /-- The configuration. -/
  config : String
  /-- Whether the answer is written in JSON. -/
  json : Bool
deriving Repr

/-- A command with its options. -/
inductive Command where
  | estimate (options : EstimateOptions)
  | serve (options : ServeOptions)
  | validate (options : ValidateOptions)
deriving Repr

namespace Command

/-! ## Values of parameters -/

/-- A word of 16 bits. A sign is allowed, also in front of zero. -/
def readWord16? (s : String) : Option UInt16 :=
  (Decimal.readInt64? s).bind fun i =>
    if isUnsigned 16 i then some (UInt16.ofNat i.toNat) else none

/-- A word of 64 bits. -/
def readWord64? (s : String) : Option UInt64 :=
  (Decimal.readBounded? (wordCount 64) s).map UInt64.ofNat

/-- Whether a text is a count of at most 255. -/
def isCount (s : String) : Bool := (Decimal.readInt64? s).any (isUnsigned 8)

/-- Whether a text is a path. -/
def isPath (s : String) : Bool := !s.isEmpty

/-! ## Grammars -/

/-- A parameter without a value. -/
def switch (name : String) : Parameter := { name := name, takesValue := false }

/-- The parameters that every command has, before and after its name. -/
def common : List Parameter := [
  { name := "verbose", letter := 'v', takesValue := false, accepts := isCount
    envName := "GYRO_SYNCER_VERBOSE", repeatable := true },
  { name := "quiet", letter := 'q', takesValue := false },
  { name := "log-format", accepts := ["json", "pretty", "compact"].contains
    envName := "GYRO_SYNCER_LOG_FORMAT" }]

/-- The configuration of `estimate` and `serve`. -/
def configParameter : Parameter :=
  { name := "config", letter := 'c', accepts := isPath, envName := "GYRO_SYNCER_CONFIG" }

/-- The parameters of `estimate`. -/
def estimateParameters : List Parameter := [
  { name := "first", accepts := isPath, required := true },
  { name := "second", accepts := isPath, required := true },
  configParameter,
  { name := "accuracy", accepts := fun s => (Decimal.readFloat? s).isSome
    envName := "GYRO_SYNCER_ACCURACY" },
  switch "no-resample",
  switch "reject-complex-roots",
  { name := "timestamp-unit", accepts := fun s => (TimeUnit.ofSymbol? s).isSome },
  switch "json"]

/-- The parameters of `serve`. -/
def serveParameters : List Parameter := [
  configParameter,
  { name := "host", envName := "GYRO_SYNCER_HOST" },
  { name := "port", accepts := fun s => (readWord16? s).isSome
    envName := "GYRO_SYNCER_PORT" },
  { name := "save-dir", accepts := isPath, envName := "GYRO_SYNCER_SAVE_DIR" },
  { name := "metrics-port", accepts := fun s => (readWord16? s).isSome
    envName := "GYRO_SYNCER_METRICS_PORT" },
  { name := "max-sessions", accepts := fun s => (readWord64? s).isSome
    envName := "GYRO_SYNCER_MAX_SESSIONS" }]

/-- The parameters of `validate`. -/
def validateParameters : List Parameter := [
  { name := "config", letter := 'c', accepts := isPath },
  switch "json"]

/-- The names of the commands. -/
def names : List String := ["estimate", "serve", "validate"]

/-- The level of a command, which has the common parameters as well. -/
def level (parameters : List Parameter) : Grammar :=
  { parameters := parameters ++ common, commands := [], hasVersion := false
    conflicts := [("quiet", "verbose")] }

/-- The level in front of the command. -/
def outerLevel : Grammar :=
  { parameters := common, commands := "help" :: names, hasVersion := true
    conflicts := [("quiet", "verbose")] }

/-- The variables of the environment that stand in for parameters. -/
def envNames : List String :=
  (common ++ estimateParameters ++ serveParameters).filterMap (·.envName)

/-! ## From words to commands -/

/-- The options of `estimate` that are given. -/
def estimateOf (given : Given) : EstimateOptions :=
  { first := (given.get? "first").getD ""
    second := (given.get? "second").getD ""
    config := given.get? "config"
    accuracy := (given.get? "accuracy").bind Decimal.readFloat?
    noResample := given.has "no-resample"
    rejectRoots := given.has "reject-complex-roots"
    unit := (given.get? "timestamp-unit").bind TimeUnit.ofSymbol?
    json := given.has "json" }

/-- The options of `serve` that are given. -/
def serveOf (given : Given) : ServeOptions :=
  { config := given.get? "config"
    host := given.get? "host"
    port := (given.get? "port").bind readWord16?
    saveDir := given.get? "save-dir"
    metricsPort := (given.get? "metrics-port").bind readWord16?
    maxSessions := ((given.get? "max-sessions").bind readWord64?).getD 0 }

/-- The options of `validate` that are given. -/
def validateOf (given : Given) : ValidateOptions :=
  { config := (given.get? "config").getD "syncer.toml"
    json := given.has "json" }

/-- The parameters of a command and what is made of them. -/
def reader? : String → Option (List Parameter × (Given → Command))
  | "estimate" => some (estimateParameters, fun g => .estimate (estimateOf g))
  | "serve" => some (serveParameters, fun g => .serve (serveOf g))
  | "validate" => some (validateParameters, fun g => .validate (validateOf g))
  | _ => none

/-- The help that the words behind `help` ask for. -/
def helpOn : List String → Stop
  | [] => .help none
  | [word] =>
    if names.contains word then .help (some word)
    else if word = "help" then .help none
    else .refused (.unknownCommand word)
  | word :: next :: _ => .refused (.unknownCommand (if names.contains word then next else word))

/-- Reads the words behind the name of a command. -/
def ofWords (env : Environment) (name : String) (words : List String) : Except Stop Command :=
  match reader? name with
  | none => .error (.refused (.unknownCommand name))
  | some (parameters, make) =>
    let grammar := level parameters
    match grammar.read none [] words with
    | .error (.help _) => .error (.help (some name))
    | .error stop => .error stop
    | .ok (given, _) => (grammar.complete env given).map make

/-- The command of a command line. What stands in front of the command is checked after the
command itself. -/
def ofArguments (env : Environment) (arguments : List String) : Except Stop Command := do
  let (given, command) ← outerLevel.read none [] arguments
  match command with
  | none => throw (.refused .missingCommand)
  | some (name, words) =>
    if name = "help" then throw (helpOn words)
    let command ← ofWords env name words
    let _ ← outerLevel.complete env given
    return command

end Command

end GyroDelay

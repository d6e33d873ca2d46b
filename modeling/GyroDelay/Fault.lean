import GyroDelay.Bits
import GyroDelay.Decimal.Layout
import GyroDelay.Text.Utf8

/-!
# Faults

Everything that can go wrong has one constructor with its cause. The wording of a fault
and its kind, the short label under which it is counted, are functions on it.
-/

namespace GyroDelay

/-- A precondition on the data or on an argument that does not hold. -/
inductive Violation (α : Type) where
  /-- There are more samples than timestamps, or fewer. -/
  | sampleCount (samples timestamps : Nat)
  /-- A stream needs two samples. -/
  | fewSamples (count : Nat)
  /-- A sample has a coordinate that is not finite. -/
  | sampleNotFinite (index : Nat)
  /-- A timestamp is not finite. -/
  | timestampNotFinite (index : Nat)
  /-- A timestamp is not after the one before it. -/
  | timestampOrder (index : Nat) (later earlier : α)
  /-- The step of a grid is not positive and finite. -/
  | gridStep (step : α)
  /-- An end of a grid is not finite. -/
  | gridBounds (start stop : α)
  /-- A mean interval needs two timestamps. -/
  | fewTimestamps
  /-- The working accuracy is not positive and finite. -/
  | accuracy (accuracy : α)
  /-- A uniform grid would have more rows than allowed. -/
  | gridSize (span interval : α) (rows limit : Nat)
  /-- One of two signals to correlate is empty. -/
  | emptySignal (first second : Nat)
  /-- There are more knots than values, or fewer. -/
  | knotCount (knots values : Nat)
  /-- A spline needs two knots. -/
  | fewKnots (count : Nat)
  /-- A knot is not after the one before it. -/
  | knotOrder (index : Nat)
  /-- Two blocks of rows to be matched differ in length. -/
  | rowCount (first second : Nat)
  /-- A clock offset needs a timestamp of each stream. -/
  | noTimestamps
  /-- A delay is not finite. -/
  | delay
  /-- A read buffer has no room. -/
  | bufferSize
  /-- A parameter of a synthetic recording is not positive and finite. -/
  | notPositive (field : String)
deriving Repr, BEq

/-- A line of a recording that is not a sample. -/
inductive LineFault where
  /-- The line does not have four fields. -/
  | fieldCount (count : Nat)
  /-- A field does not read as a number. -/
  | notNumber (name : String) (field : String)
  /-- A field reads as a number that is not finite. -/
  | notFinite (name : String) (field : String)
  /-- The line is not valid text. -/
  | notText (fault : Text.Utf8Fault)
deriving Repr, DecidableEq

/-- Why a configuration could not be read or written. -/
inductive SyntaxFault where
  /-- The file name has no extension. -/
  | noExtension
  /-- The extension belongs to no known format. -/
  | unknownExtension (extension : String)
  /-- The text is not a configuration in TOML. -/
  | toml
  /-- The text is not a configuration in JSON. -/
  | json
deriving Repr, DecidableEq

/-- A rule of valid configurations that does not hold. -/
inductive SettingFault (α : Type) where
  /-- The accuracy is not positive and finite. -/
  | accuracy (accuracy : α)
  /-- A grid needs room for two rows. -/
  | gridLimit (limit : Nat)
  /-- The host is blank. -/
  | host
  /-- The port is zero. -/
  | port
  /-- The read buffer has no room. -/
  | bufferSize
  /-- The time limit of an upload is zero. -/
  | timeLimit
  /-- The metrics port is the port of the server. -/
  | metricsPort (port : Nat)
deriving Repr, BEq

/-- Why a file could not be read. -/
inductive FileFault where
  /-- There is no such file. -/
  | missing
  /-- The path names a directory. -/
  | directory
  /-- The path goes on behind a file. -/
  | notDirectory
  /-- The path, or a name in it, is too long. -/
  | nameTooLong
  /-- The path holds a character that no name may hold. -/
  | forbiddenCharacter
  /-- The content is not valid UTF-8. -/
  | notText
  /-- Another reason, in the words of the system. -/
  | other (reason : String)
deriving Repr, DecidableEq

/-- Whether a file or a directory that cannot be read is there. -/
def FileFault.isPresent : FileFault → Bool
  | .missing | .notDirectory | .nameTooLong | .forbiddenCharacter => false
  | .directory | .notText | .other _ => true

/-- Everything that can go wrong between reading a recording and reporting a delay. -/
inductive Fault (α : Type) where
  /-- A precondition does not hold. -/
  | invalidInput (violation : Violation α)
  /-- The normal matrix of the calibration is not invertible. -/
  | singularSystem (determinant : α)
  /-- The coarse alignment leaves too few common rows. -/
  | insufficientOverlap (rows : Nat)
  /-- The slope of the peak segment has no real root. -/
  | complexRoots (re im : α)
  /-- The quadratic has neither a quadratic nor a linear term. -/
  | degenerateQuadratic
  /-- The correlation peak has no segment around it. -/
  | peakAtBoundary (index : Int) (length : Nat)
  /-- A configuration could not be read. -/
  | configSyntax (cause : SyntaxFault)
  /-- A configuration breaks a rule. -/
  | configRule (cause : SettingFault α)
  /-- A line of a recording could not be read; lines count from one. -/
  | recordingLine (line : Nat) (cause : LineFault)
  /-- A file could not be read. -/
  | file (cause : FileFault)
deriving Repr, BEq

/-- The label under which a fault is counted. -/
def Fault.kind {α : Type} : Fault α → String
  | .invalidInput _ => "invalid_input"
  | .singularSystem _ => "singular_system"
  | .insufficientOverlap _ => "insufficient_overlap"
  | .complexRoots _ _ => "complex_roots"
  | .degenerateQuadratic => "degenerate_quadratic"
  | .peakAtBoundary _ _ => "peak_at_boundary"
  | .configSyntax _ => "config_parse"
  | .configRule _ => "config_validation"
  | .recordingLine _ _ => "recording_parse"
  | .file _ => "io"

/-- The field that a violation is about. -/
def Violation.field {α : Type} : Violation α → String
  | .sampleCount _ _ | .fewSamples _ => "samples"
  | .sampleNotFinite index => s!"samples[{index}]"
  | .timestampNotFinite index => s!"timestamps[{index}]"
  | .timestampOrder index _ _ => s!"timestamps[{index}]"
  | .gridStep _ => "step"
  | .gridBounds _ _ => "range"
  | .fewTimestamps | .gridSize _ _ _ _ | .noTimestamps => "timestamps"
  | .accuracy _ => "accuracy"
  | .emptySignal _ _ => "signal"
  | .knotCount _ _ | .fewKnots _ => "spline"
  | .knotOrder index => s!"spline.x[{index}]"
  | .rowCount _ _ => "calibration"
  | .delay => "delay_s"
  | .bufferSize => "buffer_size"
  | .notPositive field => field

/-- The setting that a rule is about. -/
def SettingFault.field {α : Type} : SettingFault α → String
  | .accuracy _ => "estimator.accuracy"
  | .gridLimit _ => "estimator.max_grid_len"
  | .host => "server.host"
  | .port => "server.port"
  | .bufferSize => "server.read_buffer_size"
  | .timeLimit => "server.read_timeout_ms"
  | .metricsPort _ => "server.metrics_port"

namespace Wording

open Decimal (display fixed scientific)

/-- The wording of an invalid input. -/
def invalidInput (field message : String) : String :=
  s!"invalid input at '{field}': {message}"

/-- The wording of a singular calibration. -/
def singularSystem (determinant : Float) : String :=
  let det := scientific determinant
  s!"singular calibration system (det = {det})"

/-- The wording of an insufficient overlap. -/
def insufficientOverlap (rows : Nat) : String :=
  s!"insufficient overlap for calibration: {rows} aligned rows"

/-- The wording of non-real roots. -/
def complexRoots (re im : Float) : String :=
  let real := display re
  let imaginary := display im
  s!"non-real roots {real} ± {imaginary}i while refining correlation peak"

/-- The wording of a degenerate quadratic. -/
def degenerateQuadratic : String := "degenerate quadratic: leading coefficients are zero"

/-- The wording of a peak at the boundary. The index is shown as a signed word of 64 bits. -/
def peakAtBoundary (index : Int) (length : Nat) : String :=
  let shown := wrapSigned 64 index
  s!"correlation peak at boundary index {shown} of {length}"

/-- The wording of an unreadable configuration. -/
def configSyntax (message : String) : String := s!"config parse error: {message}"

/-- The wording of a broken rule. -/
def configRule (field message : String) : String :=
  s!"config validation error at '{field}': {message}"

/-- The wording of an unreadable line. -/
def recordingLine (line : Nat) (message : String) : String :=
  s!"recording parse error at line {line}: {message}"

/-- The wording of an unreadable file. -/
def file (message : String) : String := s!"io error: {message}"

end Wording

open Decimal (display fixed)

/-- What a violation says about its field. -/
def Violation.message : Violation Float → String
  | .sampleCount samples timestamps =>
    s!"sample count {samples} does not match timestamp count {timestamps}"
  | .fewSamples count => s!"need at least 2 samples, got {count}"
  | .sampleNotFinite _ => "angular velocity must be finite"
  | .timestampNotFinite _ => "timestamp must be finite"
  | .timestampOrder _ later earlier =>
    let after := display later
    let before := display earlier
    s!"timestamps must be strictly increasing ({after} after {before})"
  | .gridStep step =>
    let got := display step
    s!"range step must be positive and finite, got {got}"
  | .gridBounds start stop =>
    let first := display start
    let last := display stop
    s!"range bounds must be finite, got [{first}, {last})"
  | .fewTimestamps => "need at least two timestamps to measure an interval"
  | .accuracy value =>
    let got := display value
    s!"must be positive and finite, got {got}"
  | .gridSize span interval rows limit =>
    let seconds := fixed 3 span
    let dt := display interval
    s!"resampling {seconds} s at dt = {dt} needs {rows} rows, limit is {limit}"
  | .emptySignal first second => s!"cannot correlate empty signals ({first}, {second})"
  | .knotCount knots values => s!"{knots} knots but {values} values"
  | .fewKnots count => s!"need at least 2 knots, got {count}"
  | .knotOrder _ => "knots must be strictly increasing"
  | .rowCount first second => s!"row count mismatch: {first} vs {second}"
  | .noTimestamps => "clock offset needs at least one timestamp per stream"
  | .delay => "delay must be finite"
  | .bufferSize => "must be greater than 0"
  | .notPositive _ => "must be positive"

/-- What is wrong with a line. -/
def LineFault.message : LineFault → String
  | .fieldCount count => s!"expected 4 fields, found {count}"
  | .notNumber name field => s!"{name}: '{field}' is not a number"
  | .notFinite name field => s!"{name}: '{field}' is not finite"
  | .notText fault =>
    let reason := fault.message
    s!"invalid UTF-8: {reason}"

/-- What is wrong with the text of a configuration. The words of the format's reader are
not part of it. -/
def SyntaxFault.message : SyntaxFault → String
  | .noExtension => "cannot determine file format from extension"
  | .unknownExtension extension => s!"unsupported config format: .{extension}"
  | .toml => "TOML parse error"
  | .json => "JSON parse error"

/-- What a setting has to fulfil. -/
def SettingFault.message : SettingFault Float → String
  | .accuracy value =>
    let got := display value
    s!"accuracy must be > 0, got {got}"
  | .gridLimit limit => s!"max_grid_len must be >= 2, got {limit}"
  | .host => "host cannot be empty"
  | .port => "port must be non-zero"
  | .bufferSize => "read_buffer_size must be > 0"
  | .timeLimit => "read_timeout_ms must be > 0"
  | .metricsPort number => s!"metrics_port conflicts with server port {number}"

/-- What the system says about a file. -/
def FileFault.message : FileFault → String
  | .missing => "No such file or directory (os error 2)"
  | .directory => "Is a directory (os error 21)"
  | .notDirectory => "Not a directory (os error 20)"
  | .nameTooLong => "File name too long (os error 36)"
  | .forbiddenCharacter => "file name contained an unexpected NUL byte"
  | .notText => "stream did not contain valid UTF-8"
  | .other reason => reason

/-- The wording of a fault. -/
def Fault.message : Fault Float → String
  | .invalidInput v => Wording.invalidInput v.field v.message
  | .singularSystem determinant => Wording.singularSystem determinant
  | .insufficientOverlap rows => Wording.insufficientOverlap rows
  | .complexRoots re im => Wording.complexRoots re im
  | .degenerateQuadratic => Wording.degenerateQuadratic
  | .peakAtBoundary index length => Wording.peakAtBoundary index length
  | .configSyntax cause => Wording.configSyntax cause.message
  | .configRule cause => Wording.configRule cause.field cause.message
  | .recordingLine line cause => Wording.recordingLine line cause.message
  | .file cause => Wording.file cause.message

/-- The deeper cause of a fault, in its own words, where it has one: what the system says
about a file, and what the reader of a format says about a text. -/
def Fault.source? {α : Type} : Fault α → Option String
  | .file cause => some cause.message
  | .configSyntax .toml => some SyntaxFault.toml.message
  | .configSyntax .json => some SyntaxFault.json.message
  | _ => none

end GyroDelay

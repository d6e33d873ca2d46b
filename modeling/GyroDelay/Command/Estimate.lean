import GyroDelay.Command.Basic
import GyroDelay.Command.ConfigFile
import GyroDelay.Estimation.Run
import GyroDelay.Recording.File

/-!
# The command `estimate`
-/

namespace GyroDelay.Command

/-- A row of a matrix in columns of nine characters. -/
def renderRow (row : Vec3 Float) : String :=
  let cell (x : Float) : String := Decimal.padLeft 9 (Decimal.fixed 5 x)
  "    [" ++ " ".intercalate (row.toList.map cell) ++ "]\n"

/-- A report as text. -/
def renderReport (r : Report Float) : String :=
  let e := r.estimate
  "\n=== Delay Estimate ===\n\n" ++
    "  Delay: " ++ Decimal.fixed 6 e.delay ++ " s (" ++ Decimal.fixed 3 e.delaySamples ++
      " samples)\n" ++
    "  Clock offset: " ++ Decimal.fixed 9 r.clockOffset ++ " s\n" ++
    "  Sample interval: " ++ Decimal.fixed 6 e.interval ++ " s\n" ++
    "  Coarse lag: " ++ toString e.coarseLag ++ " samples\n" ++
    "  Peak: segment " ++ toString e.peakIndex ++ " + " ++ Decimal.fixed 4 e.offset ++
      (if e.corrected then " (corrected)" else "") ++ "\n" ++
    "  Calibration:\n" ++ String.join (e.calibration.rows.map renderRow) ++ "\n"

/-- A report as a JSON document. -/
def reportDocument (o : EstimateOptions) (r : Report Float) : Json.Document :=
  let e := r.estimate
  let row (v : Vec3 Float) : Json.Document := .list (v.toList.map .double)
  .record [
    ("first", .text o.first),
    ("second", .text o.second),
    ("estimate", .record [
      ("delay_s", .double e.delay),
      ("sample_interval_s", .double e.interval),
      ("coarse_lag", .integer e.coarseLag),
      ("peak_index", .integer e.peakIndex),
      ("boundary_corrected", .bool e.corrected),
      ("fractional_offset", .double e.offset),
      ("calibration", .list (e.calibration.rows.map row))]),
    ("clock_offset_s", .double r.clockOffset)]

end GyroDelay.Command

namespace GyroDelay.EstimateOptions

open Command

/-- The settings of a configuration, changed by options. -/
def apply (o : EstimateOptions) (s : Settings Float) : Settings Float :=
  { s with
    accuracy := o.accuracy.getD s.accuracy
    resample := s.resample && !o.noResample
    rootPolicy := if o.rejectRoots then .reject else s.rootPolicy }

/-- The report on two recordings. The configuration is read first, then the recording of the
first device and that of the second. -/
def report (files : Files) (o : EstimateOptions) : Except Failure (Report Float) := do
  let config ← loadConfig files o.config
  let settings := o.apply config.estimator
  attempt "Invalid estimator settings" settings.validate
  let unit := o.unit.getD config.unit
  let first ← attempt s!"Failed to read {o.first}" (Recording.load files unit o.first)
  let second ← attempt s!"Failed to read {o.second}" (Recording.load files unit o.second)
  attempt "Delay estimation failed" (Run.ofRecordings first second settings).result

/-- The text of a report in the form that is asked for. -/
def render (o : EstimateOptions) (r : Report Float) : String :=
  if o.json then (reportDocument o r).pretty ++ "\n" else renderReport r

/-- Reports the delay of two recordings. -/
def run (files : Files) (o : EstimateOptions) : Except Failure String :=
  (o.report files).map o.render

end GyroDelay.EstimateOptions

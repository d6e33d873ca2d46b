import GyroDelay.Bits
import GyroDelay.Calibration
import GyroDelay.ClockOffset
import GyroDelay.Command.Basic
import GyroDelay.Command.ConfigFile
import GyroDelay.Command.Environment
import GyroDelay.Command.Estimate
import GyroDelay.Command.Line
import GyroDelay.Command.Outcome
import GyroDelay.Command.Run
import GyroDelay.Command.Serve
import GyroDelay.Command.Validate
import GyroDelay.Config.Basic
import GyroDelay.Config.Format
import GyroDelay.Config.Tree
import GyroDelay.Config.Warning
import GyroDelay.Correlation.Curve
import GyroDelay.Correlation.Peak
import GyroDelay.Correlation.Transform
import GyroDelay.Decimal.Layout
import GyroDelay.Decimal.NumberText
import GyroDelay.Decimal.Reading
import GyroDelay.Decimal.Shortest
import GyroDelay.Estimation.Estimator
import GyroDelay.Estimation.Run
import GyroDelay.Estimation.Settings
import GyroDelay.Fault
import GyroDelay.Files
import GyroDelay.Files.Tree
import GyroDelay.Json.Reader
import GyroDelay.Json.Track
import GyroDelay.Json.Tree
import GyroDelay.Json.Value
import GyroDelay.Json.Writer
import GyroDelay.Linear
import GyroDelay.Main
import GyroDelay.Metrics.Event
import GyroDelay.Metrics.Registry
import GyroDelay.Proofs.Calibration
import GyroDelay.Proofs.ClockOffset
import GyroDelay.Proofs.Clocks
import GyroDelay.Proofs.Config.RoundTrip
import GyroDelay.Proofs.Config.Tree
import GyroDelay.Proofs.Correlation.Argmax
import GyroDelay.Proofs.Correlation.ArgmaxDoubles
import GyroDelay.Proofs.Correlation.Direct
import GyroDelay.Proofs.Correlation.Fourier
import GyroDelay.Proofs.Correlation.LocalMaximum
import GyroDelay.Proofs.Correlation.Maximum
import GyroDelay.Proofs.Correlation.Overlap
import GyroDelay.Proofs.Correlation.Refinement
import GyroDelay.Proofs.Correlation.Scaling
import GyroDelay.Proofs.Correlation.Shift
import GyroDelay.Proofs.Coverage
import GyroDelay.Proofs.Csv.Grammar
import GyroDelay.Proofs.Csv.RoundTrip
import GyroDelay.Proofs.Decimal
import GyroDelay.Proofs.Doubles
import GyroDelay.Proofs.Doubles.Arithmetic
import GyroDelay.Proofs.Doubles.Extended
import GyroDelay.Proofs.Doubles.Nearest
import GyroDelay.Proofs.Doubles.Order
import GyroDelay.Proofs.Estimation.Accounting
import GyroDelay.Proofs.Estimation.Clocks
import GyroDelay.Proofs.Estimation.Conversion
import GyroDelay.Proofs.Estimation.Faults
import GyroDelay.Proofs.Estimation.Frames
import GyroDelay.Proofs.Estimation.Invariant
import GyroDelay.Proofs.Estimation.Recovery
import GyroDelay.Proofs.Estimation.Regridding
import GyroDelay.Proofs.Estimation.Repetition
import GyroDelay.Proofs.Estimation.Resampling
import GyroDelay.Proofs.Exact
import GyroDelay.Proofs.Json.Reading
import GyroDelay.Proofs.Json.RoundTrip
import GyroDelay.Proofs.LeastSquares
import GyroDelay.Proofs.Matrix
import GyroDelay.Proofs.Metrics
import GyroDelay.Proofs.Outcome
import GyroDelay.Proofs.PartialReal
import GyroDelay.Proofs.Quadratic
import GyroDelay.Proofs.Quadratic.Factors
import GyroDelay.Proofs.Recording
import GyroDelay.Proofs.Resampling
import GyroDelay.Proofs.Rounding
import GyroDelay.Proofs.Server.Agreement
import GyroDelay.Proofs.Server.Answers
import GyroDelay.Proofs.Server.Bookkeeping
import GyroDelay.Proofs.Server.Queue
import GyroDelay.Proofs.Server.Session
import GyroDelay.Proofs.Spline.Defined
import GyroDelay.Proofs.Spline.Dilation
import GyroDelay.Proofs.Spline.Dominance
import GyroDelay.Proofs.Spline.Elimination
import GyroDelay.Proofs.Spline.Hermite
import GyroDelay.Proofs.Spline.Interpolation
import GyroDelay.Proofs.Spline.Linearity
import GyroDelay.Proofs.Spline.NaturalSpline
import GyroDelay.Proofs.Spline.Shape
import GyroDelay.Proofs.Spline.StraightLine
import GyroDelay.Proofs.Statistics
import GyroDelay.Proofs.Tally
import GyroDelay.Proofs.Text
import GyroDelay.Proofs.Text.Utf8
import GyroDelay.Proofs.Toml.Quoting
import GyroDelay.Proofs.Toml.RoundTrip
import GyroDelay.Proofs.Upload
import GyroDelay.Proofs.Validation
import GyroDelay.Quadratic
import GyroDelay.Recording.Basic
import GyroDelay.Recording.Csv
import GyroDelay.Recording.File
import GyroDelay.Recording.Synthetic
import GyroDelay.Recording.Upload
import GyroDelay.Scalar
import GyroDelay.Server
import GyroDelay.Server.Queue
import GyroDelay.Spline.Natural
import GyroDelay.Spline.Segment
import GyroDelay.Spline.Tridiagonal
import GyroDelay.Statistics.Running
import GyroDelay.Statistics.Tally
import GyroDelay.Text.Alphanumeric
import GyroDelay.Text.Blank
import GyroDelay.Text.Hex
import GyroDelay.Text.Lines
import GyroDelay.Text.Utf8
import GyroDelay.TimeUnit
import GyroDelay.Timeline
import GyroDelay.Toml.Quoted
import GyroDelay.Toml.Reader
import GyroDelay.Toml.Scalar
import GyroDelay.Toml.Table
import GyroDelay.Toml.Writer

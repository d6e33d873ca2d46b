import GyroDelay.Config.Basic
import GyroDelay.Decimal.Layout

/-!
# Warnings on configurations

What is allowed in a configuration and yet worth a hint.
-/

namespace GyroDelay.Config

/-- A hint on a valid configuration. -/
inductive Warning where
  /-- The accuracy is coarser than a tenth of a second. -/
  | coarseAccuracy (accuracy : Float)
  /-- Recordings are not resampled. -/
  | noResample
  /-- Correlation peaks without a real stationary point are accepted. -/
  | flatPeaks
  /-- Uploads are not saved. -/
  | notSaved
deriving Repr

/-- The wording of a hint. -/
def Warning.message : Warning → String
  | coarseAccuracy accuracy =>
    let value := Decimal.display accuracy
    s!"estimator.accuracy = {value} s is coarser than typical gyro sampling; " ++
      "the mean sample interval will be used instead"
  | noResample =>
    "estimator.resample is disabled - recordings must already be uniformly sampled"
  | flatPeaks =>
    "estimator.complex_roots = real_part - flat correlation peaks are accepted silently"
  | notSaved => "server.save_dir is not set - uploads are kept in memory only"

/-- The hints on a configuration, in the order of its settings. -/
def warnings (c : Config) : List Warning :=
  let tenth : Float := 0.1
  [ if tenth < c.estimator.accuracy then some (.coarseAccuracy c.estimator.accuracy) else none,
    if c.estimator.resample then none else some .noResample,
    if c.estimator.rootPolicy = .realPart then some .flatPeaks else none,
    if c.server.saveDir.isNone then some .notSaved else none ].filterMap id

end GyroDelay.Config

import GyroDelay.Recording.Basic

/-!
# Synthetic recordings

A burst of rotation about three axes under a bell-shaped envelope, seen by a sensor with a
given rate, orientation, clock and delay.
-/

namespace GyroDelay.Synthetic

/-- A full turn in radians. -/
def fullTurn : Float := 6.283185307179586

/-- The angular velocity of the burst at an instant. The envelope has its centre in the
middle of the duration and an eighth of it as its width. -/
def burst (t duration : Float) : Vec3 Float :=
  let centre := duration / 2
  let width := duration / 8
  let u := (t - centre) / width
  let envelope := (-(u * u)).exp
  { x := envelope * 1.2 * (fullTurn * 1.3 * t).sin
    y := envelope * 0.9 * (fullTurn * 2.1 * t + 0.4).sin
    z := envelope * 0.6 * (fullTurn * 0.7 * t + 1.1).sin }

/-- A sensor that watches the burst. -/
structure Sensor where
  /-- Samples per second. -/
  rate : Float := 100
  /-- Length of the recording in seconds. -/
  duration : Float := 10
  /-- What the clock of the sensor shows at the first sample. -/
  start : Float := 0
  /-- How far the motion lags behind the nominal time. -/
  delay : Float := 0
  /-- The orientation of the sensor. -/
  rotation : Mat3 Float := Mat3.identity
deriving Repr

/-- The sample at an index. -/
def Sensor.sample (s : Sensor) (i : Nat) : Vec3 Float × Float :=
  let nominal := Float.ofNat i / s.rate
  (s.rotation.apply (burst (nominal - s.delay) s.duration), s.start + nominal)

/-- Whether a parameter is positive and finite. -/
def isPositive (x : Float) : Bool := x.isFinite && 0 < x

/-- The recording of a sensor. -/
def Sensor.record (s : Sensor) : Except (Fault Float) (Recording Float) :=
  if !isPositive s.rate then .error (.invalidInput (.notPositive "rate_hz"))
  else if !isPositive s.duration then .error (.invalidInput (.notPositive "duration_s"))
  else
    let rows := (List.range (Scalar.roundInt (s.duration * s.rate)).toNat).map s.sample
    .ok ⟨rows.map (·.1), rows.map (·.2)⟩

end GyroDelay.Synthetic

import GyroDelay.Fault
import GyroDelay.Linear

/-!
# Recordings and tracks

A recording holds angular velocities and their timestamps as they were read. A track is a
recording that the estimation accepts: equally many samples and timestamps, at least two,
all finite, the timestamps strictly increasing.
-/

namespace GyroDelay

/-- Angular velocities in radians per second and their timestamps in seconds. -/
structure Recording (α : Type) where
  /-- The angular velocities. -/
  samples : List (Vec3 α)
  /-- The timestamps. -/
  times : List α
deriving Repr, BEq, Inhabited

variable {α : Type} [Scalar α]

namespace Recording

/-- The place of the first timestamp that is not after the one before it, with both;
`index` is the place of the first timestamp of the list. -/
def disorderFrom (index : Nat) : List α → Option (Nat × α × α)
  | earlier :: later :: rest =>
    if later ≤ earlier then some (index + 1, later, earlier)
    else disorderFrom (index + 1) (later :: rest)
  | _ => none

/-- The first thing that keeps a recording from being a track. -/
def violation? (r : Recording α) : Option (Violation α) :=
  if r.samples.length ≠ r.times.length then
    some (.sampleCount r.samples.length r.times.length)
  else if r.samples.length < 2 then some (.fewSamples r.samples.length)
  else match r.samples.findIdx? (fun v => !v.isFinite) with
    | some i => some (.sampleNotFinite i)
    | none =>
      match r.times.findIdx? (fun t => !Scalar.isFinite t) with
      | some i => some (.timestampNotFinite i)
      | none => (disorderFrom 0 r.times).map fun (i, later, earlier) =>
          .timestampOrder i later earlier

/-- The first samples and timestamps only. -/
def take (n : Nat) (r : Recording α) : Recording α := ⟨r.samples.take n, r.times.take n⟩

end Recording

/-- A recording without violations. -/
structure Track (α : Type) [Scalar α] extends Recording α where
  /-- Nothing keeps the recording from being a track. -/
  valid : toRecording.violation? = none

/-- The track of a recording, or what keeps it from being one. -/
def Recording.toTrack (r : Recording α) : Except (Fault α) (Track α) :=
  match h : r.violation? with
  | none => .ok ⟨r, h⟩
  | some v => .error (.invalidInput v)

namespace Track

/-- The number of samples. -/
def size (t : Track α) : Nat := t.samples.length

/-- The time from the first to the last sample. -/
def duration (t : Track α) : α :=
  t.times.getLastD Scalar.zero - t.times.headD Scalar.zero

end Track

end GyroDelay

import GyroDelay.Metrics.Event
import GyroDelay.Scalar

/-!
# Measured series

A registry holds what a sequence of events adds up to: counters that grow, gauges that
keep their last value and histograms that keep every value.
-/

namespace GyroDelay.Metrics

/-- The name of a series and the label that tells it from others of that name. -/
structure Series where
  /-- The name. -/
  name : String
  /-- The key and the value of the label, if the series has one. -/
  label : Option (String × String)
deriving Repr, DecidableEq

/-- The name with the label in braces. -/
def Series.title (s : Series) : String :=
  match s.label with
  | none => s.name ++ "\x7b\x7d"
  | some (key, value) => s.name ++ "\x7b" ++ key ++ "=" ++ value ++ "\x7d"

/-- A change of one series. -/
inductive Update (α : Type) where
  /-- A counter grows. -/
  | count (series : Series) (amount : Nat)
  /-- A gauge takes a value. -/
  | set (series : Series) (value : α)
  /-- A histogram takes one more value. -/
  | observe (series : Series) (value : α)
deriving Repr

/-- The counters, gauges and histograms of a program. -/
structure Registry (α : Type) where
  counters : List (Series × Nat)
  gauges : List (Series × α)
  histograms : List (Series × List α)
deriving Repr

/-- Changes the value of a key, which starts with `initial` when it is new. -/
def adjust {β : Type} (key : Series) (initial : β) (change : β → β) :
    List (Series × β) → List (Series × β)
  | [] => [(key, change initial)]
  | (k, v) :: rest =>
    if k = key then (k, change v) :: rest else (k, v) :: adjust key initial change rest

/-- The value of a key. -/
def valueOf {β : Type} (key : Series) (entries : List (Series × β)) : Option β :=
  (entries.find? fun e => e.1 = key).map (·.2)

variable {α : Type} [Scalar α]

open Scalar

/-- Working intervals. -/
def sampleInterval : Series := ⟨"gyro_sync_sample_interval_ms", none⟩

/-- Estimations by status. -/
def estimations (status : String) : Series :=
  ⟨"gyro_sync_estimations_total", some ("status", status)⟩

/-- Delays of successful estimations. -/
def delays : Series := ⟨"gyro_sync_delay_ms", none⟩

/-- Successful estimations with a corrected peak. -/
def corrections : Series := ⟨"gyro_sync_boundary_corrections_total", none⟩

/-- Bytes of uploads. -/
def bytesReceived : Series := ⟨"gyro_sync_bytes_received_total", none⟩

/-- Sizes of uploads by role. -/
def uploadBytes (role : String) : Series := ⟨"gyro_sync_upload_bytes", some ("role", role)⟩

/-- Samples of uploads by role. -/
def uploadSamples (role : String) : Series := ⟨"gyro_sync_upload_samples", some ("role", role)⟩

/-- The last clock offset. -/
def lastClockOffset : Series := ⟨"gyro_sync_last_clock_offset_ms", none⟩

/-- Sessions by status. -/
def sessions (status : String) : Series :=
  ⟨"gyro_sync_sessions_total", some ("status", status)⟩

/-- Lengths of sessions. -/
def sessionDurations : Series := ⟨"gyro_sync_session_duration_ms", none⟩

/-- What an event changes. -/
def updates : Event α → List (Update α)
  | .resampled interval => [.observe sampleInterval (interval * ofNat 1000)]
  | .estimated delay corrected =>
    [.count (estimations "ok") 1, .observe delays (delay * ofNat 1000)] ++
      if corrected then [.count corrections 1] else []
  | .estimationFailed kind => [.count (estimations kind) 1]
  | .bytesReceived count => [.count bytesReceived count]
  | .uploaded role bytes samples =>
    [.observe (uploadBytes role) (ofNat bytes), .observe (uploadSamples role) (ofNat samples)]
  | .clockOffset seconds => [.set lastClockOffset (seconds * ofNat 1000)]
  | .session status milliseconds =>
    [.count (sessions status) 1, .observe sessionDurations milliseconds]

namespace Registry

/-- No series. -/
def empty : Registry α := ⟨[], [], []⟩

/-- The registry after one change. -/
def apply (r : Registry α) : Update α → Registry α
  | .count series n => { r with counters := adjust series 0 (· + n) r.counters }
  | .set series x => { r with gauges := adjust series x (fun _ => x) r.gauges }
  | .observe series x => { r with histograms := adjust series [] (· ++ [x]) r.histograms }

/-- The registry of a sequence of events. -/
def ofEvents (events : List (Event α)) : Registry α :=
  (events.flatMap updates).foldl apply empty

end Registry

end GyroDelay.Metrics

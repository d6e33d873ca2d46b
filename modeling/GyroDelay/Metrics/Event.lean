/-!
# Events that are measured
-/

namespace GyroDelay

/-- Something that happened and is counted or measured. -/
inductive Event (α : Type) where
  /-- The working interval was fixed, in seconds. -/
  | resampled (interval : α)
  /-- An estimation succeeded with a delay in seconds. -/
  | estimated (delay : α) (corrected : Bool)
  /-- An estimation failed with a kind of fault. -/
  | estimationFailed (kind : String)
  /-- An upload was received completely. -/
  | bytesReceived (count : Nat)
  /-- The upload of a device was read as a recording. -/
  | uploaded (role : String) (bytes samples : Nat)
  /-- A clock offset was found, in seconds. -/
  | clockOffset (seconds : α)
  /-- A session ended with a status after some milliseconds. -/
  | session (status : String) (milliseconds : α)
deriving Repr, BEq

end GyroDelay

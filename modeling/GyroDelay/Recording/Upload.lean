import GyroDelay.Metrics.Event
import GyroDelay.Recording.Csv

/-!
# Recordings that arrive in pieces

An upload arrives as a sequence of reads, each of at most the size of the buffer, and ends
with the first empty read.
-/

namespace GyroDelay.Upload

variable {α : Type} [Scalar α] [NumberText α]

/-- The bytes of a sequence of reads. -/
def receive (bufferSize : Nat) (reads : List (List UInt8)) : Except (Fault α) (List UInt8) :=
  if bufferSize = 0 then .error (.invalidInput .bufferSize)
  else .ok (reads.takeWhile (! ·.isEmpty)).flatten

/-- Splits bytes into reads of `size` bytes, the last one with the rest; `fuel` bounds the
number of reads. -/
def splitFrom (size : Nat) : (fuel : Nat) → List UInt8 → List (List UInt8)
  | 0, _ => []
  | fuel + 1, bytes =>
    if bytes.isEmpty then [] else bytes.take size :: splitFrom size fuel (bytes.drop size)

/-- Bytes as reads that fill a buffer of `size` bytes. -/
def split (size : Nat) (bytes : List UInt8) : List (List UInt8) :=
  splitFrom size bytes.length bytes

/-- What came of reading a recording from an upload. -/
structure Reading (α : Type) where
  /-- The bytes and the recording that they hold, or what went wrong. -/
  result : Except (Fault α) (List UInt8 × Recording α)
  /-- What was measured. -/
  events : List (Event α)

/-- Receives an upload and reads it as a recording. The bytes count as received even if
they hold no recording. -/
def read (bufferSize : Nat) (unit : TimeUnit) (reads : List (List UInt8)) : Reading α :=
  match receive bufferSize reads with
  | .error fault => ⟨.error fault, []⟩
  | .ok bytes =>
    ⟨(Recording.parseBytes unit bytes).map (bytes, ·), [.bytesReceived bytes.length]⟩

end GyroDelay.Upload

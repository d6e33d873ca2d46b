import GyroDelay.Scalar

/-!
# Units of recorded timestamps
-/

namespace GyroDelay

/-- The unit of a timestamp column. -/
inductive TimeUnit where
  | nanoseconds
  | microseconds
  | milliseconds
  | seconds
deriving Repr, DecidableEq, Inhabited

namespace TimeUnit

/-- All units, from the finest to the coarsest. -/
def all : List TimeUnit := [nanoseconds, microseconds, milliseconds, seconds]

/-- How many units make a second. -/
def perSecond : TimeUnit → Nat
  | nanoseconds => 1000000000
  | microseconds => 1000000
  | milliseconds => 1000
  | seconds => 1

/-- The length of one unit in seconds. -/
def factor {α : Type} [Scalar α] (u : TimeUnit) : α :=
  if u = seconds then Scalar.ofNat 1 else Scalar.ofNat 1 / Scalar.ofNat u.perSecond

/-- The name of a unit in configurations. -/
def name : TimeUnit → String
  | nanoseconds => "nanoseconds"
  | microseconds => "microseconds"
  | milliseconds => "milliseconds"
  | seconds => "seconds"

/-- The unit of a name. -/
def ofName? (s : String) : Option TimeUnit := all.find? fun u => u.name == s

/-- The name of a unit in reports. -/
def title : TimeUnit → String
  | nanoseconds => "Nanoseconds"
  | microseconds => "Microseconds"
  | milliseconds => "Milliseconds"
  | seconds => "Seconds"

/-- The short name of a unit on the command line. -/
def symbol : TimeUnit → String
  | nanoseconds => "ns"
  | microseconds => "us"
  | milliseconds => "ms"
  | seconds => "s"

/-- The unit of a short name. -/
def ofSymbol? (s : String) : Option TimeUnit := all.find? fun u => u.symbol == s

end TimeUnit

end GyroDelay

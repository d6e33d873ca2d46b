import GyroDelay.Statistics.Running

/-!
# The tally of estimations

How many estimations succeeded and failed, the failures by kind, and the statistics of the
delays and clock offsets that were found, in milliseconds.
-/

namespace GyroDelay

/-- Adds one to the count of a key in a list with increasing keys. -/
def countUp (key : String) : List (String × Nat) → List (String × Nat)
  | [] => [(key, 1)]
  | (k, n) :: rest =>
    if key = k then (k, n + 1) :: rest
    else if key < k then (key, 1) :: (k, n) :: rest
    else (k, n) :: countUp key rest

/-- What has been recorded of estimations. -/
structure Tally (α : Type) where
  /-- How many succeeded. -/
  successes : Nat
  /-- How many failed. -/
  failures : Nat
  /-- How many succeeded with a corrected peak. -/
  corrections : Nat
  /-- The delays in milliseconds. -/
  delays : Running α
  /-- The clock offsets in milliseconds. -/
  offsets : Running α
  /-- The failures by kind, by increasing kind. -/
  failureCounts : List (String × Nat)
deriving Repr, BEq

variable {α : Type} [Scalar α]

open Scalar

namespace Tally

/-- Nothing recorded. -/
def empty : Tally α := ⟨0, 0, 0, Running.empty, Running.empty, []⟩

/-- Records a success with its delay and, if known, its clock offset, both in seconds. -/
def success (t : Tally α) (delay : α) (corrected : Bool) (offset : Option α) : Tally α :=
  { t with
    successes := t.successes + 1
    corrections := if corrected then t.corrections + 1 else t.corrections
    delays := t.delays.push (delay * ofNat 1000)
    offsets := match offset with
      | some o => t.offsets.push (o * ofNat 1000)
      | none => t.offsets }

/-- Records a failure of a kind. -/
def failure (t : Tally α) (kind : String) : Tally α :=
  { t with failures := t.failures + 1, failureCounts := countUp kind t.failureCounts }

/-- How many estimations were recorded. -/
def total (t : Tally α) : Nat := t.successes + t.failures

/-- The share of successes in percent, zero if nothing was recorded. -/
def successRate (t : Tally α) : α :=
  if t.total = 0 then zero else ofNat t.successes / ofNat t.total * ofNat 100

end Tally

/-- What is reported of a tally. -/
structure TallySummary (α : Type) where
  total : Nat
  successes : Nat
  failures : Nat
  successRate : α
  corrections : Nat
  delays : Summary α
  offsets : Summary α
  failureCounts : List (String × Nat)
deriving Repr, BEq

/-- The summary of a tally. -/
def Tally.summary (t : Tally α) : TallySummary α where
  total := t.total
  successes := t.successes
  failures := t.failures
  successRate := t.successRate
  corrections := t.corrections
  delays := t.delays.summary
  offsets := t.offsets.summary
  failureCounts := t.failureCounts

/-- Whether the count of a kind is listed before another one: by the kinds, then by the counts. -/
def isListedBefore (a b : String × Nat) : Bool := a.1 < b.1 || (a.1 == b.1 && a.2 ≤ b.2)

/-- The text of a summary. The numbers are written by a function of the places and the number. -/
def TallySummary.renderWith (fixed : Nat → α → String) (s : TallySummary α) : String :=
  let total := s.total
  let successes := s.successes
  let rate := fixed 2 s.successRate
  let corrections := s.corrections
  let delays := s.delays.renderWith fixed
  let offsets := s.offsets.renderWith fixed
  let failures := (s.failureCounts.mergeSort isListedBefore).map fun (kind, count) =>
    s!"  {kind}: {count}\n"
  "=== Gyro Sync Summary ===\n" ++
  s!"Estimations: {total} ({successes} ok, {rate}%)\n" ++
  s!"Boundary corrections: {corrections}\n" ++
  s!"Delay (ms): {delays}\n" ++
  s!"Clock offset (ms): {offsets}\n" ++
  (if failures.isEmpty then "" else "Failures:\n" ++ String.join failures)

/-- The text of the summary of a tally of doubles. -/
def Tally.render (t : Tally Float) : String := t.summary.renderWith Decimal.fixed

/-- An event that a tally records. -/
inductive TallyEvent (α : Type) where
  /-- A success with its delay and clock offset in seconds. -/
  | success (delay : α) (corrected : Bool) (offset : Option α)
  /-- A failure of a kind. -/
  | failure (kind : String)
  /-- Everything recorded so far is forgotten. -/
  | reset

/-- The tally after one more event. -/
def Tally.record (t : Tally α) : TallyEvent α → Tally α
  | .success delay corrected offset => t.success delay corrected offset
  | .failure kind => t.failure kind
  | .reset => Tally.empty

/-- The tally of a sequence of events. -/
def Tally.ofEvents (events : List (TallyEvent α)) : Tally α := events.foldl Tally.record Tally.empty

end GyroDelay

import GyroDelay.Bits
import GyroDelay.Correlation.Transform
import GyroDelay.Fault

/-!
# Cross-correlation of two signals

The curve of all lags, computed with one transform of each signal padded with zeros. Entry
`i` belongs to the lag `i - (m - 1)`, where `m` is the length of the first signal; entries
past the largest lag fall into the padding.
-/

namespace GyroDelay

variable {α : Type} [Scalar α]

open Scalar

/-- The highest entry so far with its index, after one more entry. -/
@[specialize] def higher (best : Option (α × Nat)) (entry : α × Nat) : Option (α × Nat) :=
  match best with
  | none => if isAboveLeast entry.1 then some entry else none
  | some top => if top.1 < entry.1 then some entry else some top

/-- The index of the first maximum. Values that are not numbers never count, nor does minus
infinity; without an entry that counts the index is zero. -/
@[specialize] def argmax (xs : List α) : Nat :=
  ((xs.zipIdx.foldl higher none).map (·.2)).getD 0

/-- The lag that an index of a correlation curve stands for. -/
def signedLag (index firstLength : Nat) : Int := (index : Int) - ((firstLength : Int) - 1)

/-- The lag in a signed word of 64 bits, for numbers that no curve has room for. -/
def lagWord (index firstLength : Nat) : Int := wrapSigned 64 (signedLag index firstLength)

/-- The word holds the lag itself as long as the lag fits. -/
theorem lagWord_eq_signedLag {index firstLength : Nat}
    (h : isSigned 64 (signedLag index firstLength) = true) :
    lagWord index firstLength = signedLag index firstLength :=
  wrapSigned_eq_self (by decide) h

namespace Correlation

/-- The exponent of the least power of two that is at least `n`. -/
def paddedLevel (n : Nat) : Nat := if n ≤ 1 then 0 else Nat.log2 (n - 1) + 1

/-- A real signal as complex numbers, followed by zeros up to length `n`. -/
@[specialize] def padded (xs : List α) (n : Nat) : Array (Rect α) :=
  (xs.map fun x => ⟨x, zero⟩).toArray ++ Array.replicate (n - xs.length) Rect.zero

/-- The circular correlation of two signals padded to `2 ^ k` entries: entry `j` is the
sum of all products `a (m + j) * b m`, with `m + j` taken modulo the length. -/
@[specialize] def circular (k : Nat) (a b : List α) : List α :=
  let n := Nat.pow 2 k
  let spectrumA := Transform.forward k (padded a n)
  let spectrumB := Transform.forward k (padded b n)
  let product := Array.zipWith (fun u v => u.mul v.conj) spectrumA spectrumB
  let scale := ofNat 1 / ofNat n
  (Transform.backward k product).toList.map fun u => u.re * scale

/-- A list with its first `n` entries moved to the end. -/
def rotate {β : Type} (n : Nat) (xs : List β) : List β := xs.drop n ++ xs.take n

/-- The cross-correlation of two signals, all lags in increasing order. -/
@[specialize] def full (a b : List α) : Except (Fault α) (List α) :=
  if a.isEmpty || b.isEmpty then .error (.invalidInput (.emptySignal a.length b.length))
  else .ok (rotate a.length (circular (paddedLevel (a.length + b.length - 1)) a b)).reverse

/-- A correlation curve and the index of its highest entry. -/
structure Curve (α : Type) where
  /-- The entries, by increasing lag. -/
  values : List α
  /-- The index of the first maximum. -/
  peak : Nat
deriving Repr

/-- The correlation curve of two signals. -/
@[specialize] def Curve.between (a b : List α) : Except (Fault α) (Curve α) :=
  (full a b).map fun values => ⟨values, argmax values⟩

/-- The entry at the peak. -/
def Curve.height (c : Curve α) : α := c.values.getD c.peak zero

end Correlation

end GyroDelay

/-!
# Integers of a number of bits

Bounds are written with `Nat.pow`, so that no instance has to be found for a power.
-/

namespace GyroDelay

/-- How many numbers a number of bits tells apart. -/
def wordCount (bits : Nat) : Nat := Nat.pow 2 bits

/-- Whether an integer fits into a number of bits without a sign. -/
def isUnsigned (bits : Nat) (i : Int) : Bool := 0 ≤ i && i < wordCount bits

/-- Whether an integer fits into a number of bits of which the first is the sign. -/
def isSigned (bits : Nat) (i : Int) : Bool :=
  -(wordCount (bits - 1) : Int) ≤ i && i < wordCount (bits - 1)

/-- The integer that a number of bits, of which the first is the sign, holds in place of an
integer: the one in range that differs from it by a multiple of the count of words. -/
def wrapSigned (bits : Nat) (i : Int) : Int := i.bmod (wordCount bits)

/-- The bytes of a word of 64 bits, the highest first. -/
def bigEndian (word : UInt64) : List UInt8 :=
  [56, 48, 40, 32, 24, 16, 8, 0].map fun (shift : UInt64) => (word >>> shift).toUInt8

theorem length_bigEndian (word : UInt64) : (bigEndian word).length = 8 := rfl

/-- An integer that fits is held as it is. -/
theorem wrapSigned_eq_self {bits : Nat} {i : Int} (hb : 0 < bits) (h : isSigned bits i = true) :
    wrapSigned bits i = i := by
  obtain ⟨k, rfl⟩ : ∃ k, bits = k + 1 := ⟨bits - 1, by omega⟩
  have hw : wordCount (k + 1) = 2 * wordCount k := by
    simp only [wordCount, Nat.pow_eq, Nat.pow_succ]
    omega
  simp only [isSigned, Nat.add_sub_cancel, Bool.and_eq_true, decide_eq_true_eq] at h
  rw [wrapSigned, hw]
  exact Int.bmod_eq_of_le (by omega) (by omega)

end GyroDelay

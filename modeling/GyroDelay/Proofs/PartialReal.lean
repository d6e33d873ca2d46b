import GyroDelay.Linear
import GyroDelay.Proofs.Exact

/-!
# Exact arithmetic with undefined results

Division and square root are total functions on the real numbers. In the arithmetic of this
module a quotient by zero and the square root of a negative number are undefined, and so is
everything that is computed from an undefined number. A definition that is read over
`PartialReal` and returns defined numbers has found them without any quotient by zero.

On defined numbers the operations are those of exact arithmetic: one simp lemma each, with a
hypothesis for division (`div_defined`) and for the square root (`sqrt_defined`).
-/

namespace GyroDelay

/-- A real number, or no number. -/
inductive PartialReal where
  /-- No number. -/
  | undefined
  /-- A real number. -/
  | defined (x : ℝ)

namespace PartialReal

/-- An operation on one number. -/
def lift (f : ℝ → PartialReal) : PartialReal → PartialReal
  | defined x => f x
  | undefined => undefined

/-- An operation on two numbers. -/
def lift₂ (f : ℝ → ℝ → PartialReal) : PartialReal → PartialReal → PartialReal
  | defined x, defined y => f x y
  | _, _ => undefined

/-- A relation of numbers, which no undefined number has to any other. -/
def Related (r : ℝ → ℝ → Prop) : PartialReal → PartialReal → Prop
  | defined x, defined y => r x y
  | _, _ => False

/-- What is read off a number, with a value for no number. -/
def readOff {β : Type} (f : ℝ → β) (z : β) : PartialReal → β
  | defined x => f x
  | undefined => z

open Classical in
noncomputable instance : Scalar PartialReal where
  add := lift₂ fun x y => defined (x + y)
  sub := lift₂ fun x y => defined (x - y)
  mul := lift₂ fun x y => defined (x * y)
  div := lift₂ fun x y => if y = 0 then undefined else defined (x / y)
  neg := lift fun x => defined (-x)
  lt := Related (· < ·)
  le := Related (· ≤ ·)
  beq
    | defined x, defined y => x == y
    | _, _ => false
  ofNat n := defined n
  ofInt i := defined i
  isFinite := readOff (fun _ => true) false
  abs := lift fun x => defined |x|
  sqrt := lift fun x => if 0 ≤ x then defined √x else undefined
  sign := lift fun x => defined (Scalar.sign x)
  lesser := lift₂ fun x y => defined (min x y)
  greater := lift₂ fun x y => defined (max x y)
  ceilNat := readOff Scalar.ceilNat 0
  roundInt := readOff Scalar.roundInt 0
  isAboveLeast := readOff (fun _ => true) false
  turn k n := (defined (Scalar.turn k n).1, defined (Scalar.turn k n).2)
  decLt _ _ := propDecidable _
  decLe _ _ := propDecidable _

/-! ## Operations on defined numbers -/

section Operations

variable (x y : ℝ)

@[simp] theorem ofNat_defined (n : ℕ) : (Scalar.ofNat n : PartialReal) = defined n := rfl

@[simp] theorem zero_defined : (Scalar.zero : PartialReal) = defined 0 := by
  rw [Scalar.zero, ofNat_defined, Nat.cast_zero]

@[simp] theorem add_defined : defined x + defined y = defined (x + y) := rfl

@[simp] theorem sub_defined : defined x - defined y = defined (x - y) := rfl

@[simp] theorem mul_defined : defined x * defined y = defined (x * y) := rfl

@[simp] theorem neg_defined : -defined x = defined (-x) := rfl

@[simp] theorem abs_defined : Scalar.abs (defined x) = defined |x| := rfl

@[simp] theorem sign_defined : Scalar.sign (defined x) = defined (Scalar.sign x) := rfl

@[simp] theorem lt_defined : defined x < defined y ↔ x < y := Iff.rfl

@[simp] theorem le_defined : defined x ≤ defined y ↔ x ≤ y := Iff.rfl

@[simp] theorem beq_defined : (defined x == defined y) = (x == y) := rfl

variable {x y}

/-- A quotient is defined exactly if it is none by zero. -/
theorem div_eq_defined_iff {z : ℝ} : defined x / defined y = defined z ↔ y ≠ 0 ∧ x / y = z := by
  change (if y = 0 then undefined else defined (x / y)) = defined z ↔ y ≠ 0 ∧ x / y = z
  by_cases h : y = 0
  · simp [h]
  · simp [h]

@[simp] theorem div_defined (h : y ≠ 0) : defined x / defined y = defined (x / y) :=
  div_eq_defined_iff.mpr ⟨h, rfl⟩

@[simp] theorem sqrt_defined (h : 0 ≤ x) : Scalar.sqrt (defined x) = defined √x :=
  if_pos h

end Operations

end PartialReal

/-- A complex number with both parts replaced. -/
def Rect.map {β γ : Type} (f : β → γ) (u : Rect β) : Rect γ := ⟨f u.re, f u.im⟩

end GyroDelay

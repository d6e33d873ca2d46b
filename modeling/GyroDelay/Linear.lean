import GyroDelay.Scalar

/-!
# Three-dimensional vectors and matrices

An angular velocity is a vector of three coordinates, a change of sensor axes a matrix of
three rows.
-/

namespace GyroDelay

/-- A vector with three coordinates. -/
structure Vec3 (α : Type) where
  x : α
  y : α
  z : α
deriving Repr, DecidableEq, BEq, Inhabited

/-- A matrix of three rows. -/
structure Mat3 (α : Type) where
  row1 : Vec3 α
  row2 : Vec3 α
  row3 : Vec3 α
deriving Repr, DecidableEq, BEq, Inhabited

/-- A complex number in rectangular form. -/
structure Rect (α : Type) where
  re : α
  im : α
deriving Repr, DecidableEq, BEq, Inhabited

variable {α : Type} [Scalar α]

open Scalar

namespace Vec3

/-- The coordinates in order. -/
def toList (v : Vec3 α) : List α := [v.x, v.y, v.z]

/-- Whether every coordinate is finite. -/
def isFinite (v : Vec3 α) : Bool :=
  Scalar.isFinite v.x && Scalar.isFinite v.y && Scalar.isFinite v.z

/-- The sum of two vectors. -/
@[specialize] def add (v w : Vec3 α) : Vec3 α := ⟨v.x + w.x, v.y + w.y, v.z + w.z⟩

/-- A vector times a number. -/
@[specialize] def scale (c : α) (v : Vec3 α) : Vec3 α := ⟨c * v.x, c * v.y, c * v.z⟩

/-- The scalar product, summed in the order of the coordinates. -/
@[specialize] def dot (v w : Vec3 α) : α := v.x * w.x + v.y * w.y + v.z * w.z

/-- The length, from squares summed in the order of the coordinates. -/
@[specialize] def norm (v : Vec3 α) : α := sqrt (zero + v.x * v.x + v.y * v.y + v.z * v.z)

/-- The zero vector. -/
def zero : Vec3 α := ⟨Scalar.zero, Scalar.zero, Scalar.zero⟩

end Vec3

namespace Mat3

/-- The rows in order. -/
def rows (m : Mat3 α) : List (Vec3 α) := [m.row1, m.row2, m.row3]

/-- The zero matrix. -/
def zero : Mat3 α := ⟨Vec3.zero, Vec3.zero, Vec3.zero⟩

/-- The identity matrix. -/
def identity : Mat3 α :=
  ⟨⟨ofNat 1, ofNat 0, ofNat 0⟩, ⟨ofNat 0, ofNat 1, ofNat 0⟩, ⟨ofNat 0, ofNat 0, ofNat 1⟩⟩

/-- The sum of two matrices. -/
@[specialize] def add (m n : Mat3 α) : Mat3 α :=
  ⟨m.row1.add n.row1, m.row2.add n.row2, m.row3.add n.row3⟩

/-- The matrix of all products of a coordinate of `v` with one of `w`. -/
@[specialize] def outer (v w : Vec3 α) : Mat3 α := ⟨w.scale v.x, w.scale v.y, w.scale v.z⟩

/-- Rows and columns exchanged. -/
def transpose (m : Mat3 α) : Mat3 α :=
  ⟨⟨m.row1.x, m.row2.x, m.row3.x⟩, ⟨m.row1.y, m.row2.y, m.row3.y⟩,
   ⟨m.row1.z, m.row2.z, m.row3.z⟩⟩

/-- The image of a vector. -/
@[specialize] def apply (m : Mat3 α) (v : Vec3 α) : Vec3 α :=
  ⟨m.row1.dot v, m.row2.dot v, m.row3.dot v⟩

/-- The matrix product. -/
@[specialize] def mul (m n : Mat3 α) : Mat3 α :=
  let columns := n.transpose
  ⟨columns.apply m.row1, columns.apply m.row2, columns.apply m.row3⟩

/-- The sum of the diagonal. -/
def trace (m : Mat3 α) : α := m.row1.x + m.row2.y + m.row3.z

/-- The determinant, expanded along the first row. -/
def det (m : Mat3 α) : α :=
  m.row1.x * (m.row2.y * m.row3.z - m.row3.y * m.row2.z)
    - m.row1.y * (m.row2.x * m.row3.z - m.row3.x * m.row2.z)
    + m.row1.z * (m.row2.x * m.row3.y - m.row3.x * m.row2.y)

/-- The inverse by cofactors, unless the determinant is zero. -/
def inverse? (m : Mat3 α) : Option (Mat3 α) :=
  let d := m.det
  if d == Scalar.zero then none
  else
    some
      ⟨⟨(m.row2.y * m.row3.z - m.row3.y * m.row2.z) / d,
        (m.row1.z * m.row3.y - m.row3.z * m.row1.y) / d,
        (m.row1.y * m.row2.z - m.row2.y * m.row1.z) / d⟩,
       ⟨(m.row2.z * m.row3.x - m.row3.z * m.row2.x) / d,
        (m.row1.x * m.row3.z - m.row3.x * m.row1.z) / d,
        (m.row1.z * m.row2.x - m.row2.z * m.row1.x) / d⟩,
       ⟨(m.row2.x * m.row3.y - m.row3.x * m.row2.y) / d,
        (m.row1.y * m.row3.x - m.row3.y * m.row1.x) / d,
        (m.row1.x * m.row2.y - m.row2.x * m.row1.y) / d⟩⟩

end Mat3

end GyroDelay

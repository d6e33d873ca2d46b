import GyroDelay.Scalar

/-!
# Tridiagonal systems

Elimination without pivoting: a forward sweep makes the system upper bidiagonal with unit
diagonal, a backward sweep reads the solution off.
-/

namespace GyroDelay.Spline

/-- One equation `sub * u + diag * v + sup * w = rhs` on three neighbours. -/
structure Equation (α : Type) where
  sub : α
  diag : α
  sup : α
  rhs : α
deriving Repr

/-- An eliminated equation `v + sup * w = rhs`. -/
structure Eliminated (α : Type) where
  sup : α
  rhs : α
deriving Repr

variable {α : Type} [Scalar α]

/-- Eliminates the first unknown of an equation with the equation before it, if any. -/
@[specialize] def eliminate (before : Option (Eliminated α)) (e : Equation α) : Eliminated α :=
  match before with
  | none => ⟨e.sup / e.diag, e.rhs / e.diag⟩
  | some p =>
    let pivot := e.diag - e.sub * p.sup
    ⟨e.sup / pivot, (e.rhs - e.sub * p.rhs) / pivot⟩

/-- The forward sweep; the last eliminated equation comes first. -/
@[specialize] def forward (system : List (Equation α)) : List (Eliminated α) :=
  system.foldl (fun done e => eliminate done.head? e :: done) []

/-- One unknown from its eliminated equation and the unknowns after it. -/
@[specialize] def substitute (after : List α) (e : Eliminated α) : List α :=
  match after with
  | [] => [e.rhs]
  | w :: _ => (e.rhs - e.sup * w) :: after

/-- The solution of a tridiagonal system. -/
@[specialize] def solveTridiagonal (system : List (Equation α)) : List α :=
  (forward system).foldl substitute []

end GyroDelay.Spline

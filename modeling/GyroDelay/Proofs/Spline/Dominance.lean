import GyroDelay.Proofs.PartialReal
import GyroDelay.Proofs.Spline.Elimination

/-!
# Dominant systems have one solution, which elimination finds

In exact arithmetic, a tridiagonal system whose pivots are not zero has no other solution than
the one that the two sweeps read off (`Solves.eq_solveTridiagonal`): the first equation
determines the first unknown from the second one, just as the equation that it is eliminated to
does, and what is left is the rest of the system with a known value before it.

The pivots are all that is divided by. Where quotients by zero are undefined, the sweeps take the
same values and all of them are defined (`forward_defined`, `solveTridiagonal_defined`). Both
hold of every system whose diagonal outweighs the rest (`solveTridiagonal_of_isDominant`), since
the pivots of such a system are not zero.
-/

namespace GyroDelay.Spline

open PartialReal

/-! ## Uniqueness -/

/-- The first unknown is what the eliminated equation makes it. -/
theorem eq_eliminate_of_equation {e : Equation ℝ} {p : Eliminated ℝ} (h : e.pivot p ≠ 0) {v w : ℝ}
    (hv : e.sub * (p.rhs - p.sup * v) + e.diag * v + e.sup * w = e.rhs) :
    v = (eliminate (some p) e).rhs - (eliminate (some p) e).sup * w := by
  have hpivot : e.pivot p * v = e.rhs - e.sub * p.rhs - e.sup * w := by
    rw [Equation.pivot]
    linear_combination hv
  rw [eliminate_some]
  field_simp
  linear_combination hpivot

/-- Only the unknowns that are read off after an equation `p` solve the rest of a system. -/
theorem Solves.eq_unwind {system : List (Equation ℝ)} {p : Eliminated ℝ} {xs : List ℝ}
    (hpivots : ∀ d ∈ pivots p system, d ≠ 0)
    (h : Solves (p.rhs - p.sup * xs.getD 0 0) system xs) : xs = unwind (sweep p system) := by
  induction system generalizing p xs with
  | nil => exact List.eq_nil_of_length_eq_zero h.length_eq
  | cons e system ih =>
    obtain ⟨hpivot, hrest⟩ := List.forall_mem_cons.mp hpivots
    obtain ⟨v, ys, rfl⟩ := List.exists_cons_of_length_eq_add_one h.length_eq
    obtain ⟨hfirst, hys⟩ := solves_cons_iff.mp h
    have hv : v = _ := eq_eliminate_of_equation hpivot hfirst
    -- so the value before the rest is the one that the induction is about
    rw [hv] at hys
    rw [sweep, unwind_cons, ← ih hrest hys, ← hv]

/-- **Uniqueness.** If no pivot of a system is zero, its only solution is the one that is
found. -/
theorem Solves.eq_solveTridiagonal {system : List (Equation ℝ)} {xs : List ℝ}
    (hpivots : ∀ d ∈ pivots Eliminated.nothing system, d ≠ 0) (h : Solves 0 system xs) :
    xs = solveTridiagonal system := by
  rw [solveTridiagonal_eq]
  refine Solves.eq_unwind hpivots ?_
  rwa [Eliminated.nothing, zero_mul, sub_zero]

/-! ## Quotients -/

/-- An equation with all its numbers replaced. -/
def Equation.map {β γ : Type} (f : β → γ) (e : Equation β) : Equation γ :=
  ⟨f e.sub, f e.diag, f e.sup, f e.rhs⟩

/-- An eliminated equation with both its numbers replaced. -/
def Eliminated.map {β γ : Type} (f : β → γ) (p : Eliminated β) : Eliminated γ :=
  ⟨f p.sup, f p.rhs⟩

theorem eliminate_getD (before : Option (Eliminated ℝ)) (e : Equation ℝ) :
    eliminate (some (before.getD Eliminated.nothing)) e = eliminate before e := by
  cases before with
  | none => exact (eliminate_none e).symm
  | some p => rfl

theorem eliminate_defined {before : Option (Eliminated ℝ)} {e : Equation ℝ}
    (h : e.pivot (before.getD Eliminated.nothing) ≠ 0) :
    eliminate (before.map (Eliminated.map defined)) (e.map defined) =
      (eliminate before e).map defined := by
  -- the pivot is the divisor of both quotients; without an equation before it is the diagonal
  rw [Equation.pivot] at h
  cases before with
  | none =>
    rw [Option.getD_none, Eliminated.nothing, mul_zero, sub_zero] at h
    simp only [Option.map_none, eliminate, Equation.map, Eliminated.map, div_defined h]
  | some p =>
    rw [Option.getD_some] at h
    simp only [Option.map_some, eliminate, Equation.map, Eliminated.map, mul_defined, sub_defined,
      div_defined h]

/-- The forward sweep, from the equations that are already eliminated on. -/
theorem foldl_eliminate_defined {system : List (Equation ℝ)} (done : List (Eliminated ℝ))
    (h : ∀ d ∈ pivots (done.head?.getD Eliminated.nothing) system, d ≠ 0) :
    (system.map (Equation.map defined)).foldl (fun done e => eliminate done.head? e :: done)
        (done.map (Eliminated.map defined)) =
      (system.foldl (fun done e => eliminate done.head? e :: done) done).map
        (Eliminated.map defined) := by
  induction system generalizing done with
  | nil => rfl
  | cons e system ih =>
    obtain ⟨hpivot, hrest⟩ := List.forall_mem_cons.mp h
    rw [eliminate_getD] at hrest
    rw [List.map_cons, List.foldl_cons, List.foldl_cons, List.head?_map,
      eliminate_defined hpivot]
    exact ih (eliminate done.head? e :: done) hrest

theorem forward_defined {system : List (Equation ℝ)}
    (h : ∀ d ∈ pivots Eliminated.nothing system, d ≠ 0) :
    forward (system.map (Equation.map defined)) =
      (forward system).map (Eliminated.map defined) :=
  foldl_eliminate_defined [] h

theorem substitute_defined (after : List ℝ) (e : Eliminated ℝ) :
    substitute (after.map defined) (e.map defined) = (substitute after e).map defined := by
  cases after with
  | nil => rfl
  | cons w rest => rfl

theorem foldl_substitute_defined (rows : List (Eliminated ℝ)) (after : List ℝ) :
    (rows.map (Eliminated.map defined)).foldl substitute (after.map defined) =
      (rows.foldl substitute after).map defined := by
  induction rows generalizing after with
  | nil => rfl
  | cons e rows ih =>
    rw [List.map_cons, List.foldl_cons, List.foldl_cons, substitute_defined, ih]

/-- **No quotient by zero.** If no pivot of a system is zero, both sweeps take the same values
where a quotient by zero is undefined. -/
theorem solveTridiagonal_defined {system : List (Equation ℝ)}
    (h : ∀ d ∈ pivots Eliminated.nothing system, d ≠ 0) :
    solveTridiagonal (system.map (Equation.map defined)) =
      (solveTridiagonal system).map defined := by
  rw [solveTridiagonal, forward_defined h]
  exact foldl_substitute_defined (forward system) []

/-! ## Dominant systems -/

/-- **Elimination without pivoting.** If the diagonal of a tridiagonal system outweighs the rest in
each equation, the two sweeps take no quotient by zero, and what they return is the only solution
of the system. -/
theorem solveTridiagonal_of_isDominant {system : List (Equation ℝ)}
    (h : ∀ e ∈ system, e.IsDominant) :
    (forward (system.map (Equation.map defined)) = (forward system).map (Eliminated.map defined) ∧
      solveTridiagonal (system.map (Equation.map defined)) =
        (solveTridiagonal system).map defined) ∧
    ∀ xs, Solves 0 system xs ↔ xs = solveTridiagonal system := by
  have hpivots := pivots_ne_zero_of_isDominant h
  refine ⟨⟨forward_defined hpivots, solveTridiagonal_defined hpivots⟩, fun xs => ?_⟩
  constructor
  · exact fun hxs => hxs.eq_solveTridiagonal hpivots
  · rintro rfl
    exact solves_solveTridiagonal hpivots

/-- A system of three rows. Its first lower and its last upper entry belong to no unknown. -/
theorem solveTridiagonal_three_rows :
    let system : List (Equation ℝ) := [⟨1 / 2, 2, 1, 1⟩, ⟨-1, -3, 1, 11⟩, ⟨1, 2, 1 / 2, 5⟩]
    (∀ e ∈ system, e.IsDominant) ∧ solveTridiagonal system = [2, -3, 4] ∧
      solveTridiagonal (system.map (Equation.map defined)) =
        [defined 2, defined (-3), defined 4] := by
  intro system
  have hdominant : ∀ e ∈ system, e.IsDominant := by
    simp only [system, List.forall_mem_cons, Equation.IsDominant]
    norm_num [abs_of_pos]
  have hsolves : Solves 0 system [2, -3, 4] := by
    simp only [system, solves_cons_iff]
    norm_num [solves_nil]
  obtain ⟨⟨-, hdefined⟩, hunique⟩ := solveTridiagonal_of_isDominant hdominant
  have hsolution := (hunique _).mp hsolves
  rw [hdefined, ← hsolution]
  exact ⟨hdominant, rfl, rfl⟩

end GyroDelay.Spline

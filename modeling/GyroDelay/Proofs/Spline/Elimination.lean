import GyroDelay.Proofs.Exact
import GyroDelay.Spline.Tridiagonal

/-!
# Elimination solves tridiagonal systems

The forward sweep divides by the pivots of a system (`pivots`). In exact arithmetic, as long
as none of them is zero, the backward sweep reads off a solution (`solves_solveTridiagonal`).

The pivots of a system whose diagonal outweighs the rest are not zero
(`pivots_ne_zero_of_isDominant`): the upper entries of eliminated equations stay below one in
magnitude, so that a pivot outweighs the upper entry of its equation (`pivots_ne_zero`).
-/

namespace GyroDelay.Spline

/-! ## Both sweeps as recursions over the system -/

/-- What an equation is divided by when the equation before it has become `p`. -/
noncomputable def Equation.pivot (e : Equation ℝ) (p : Eliminated ℝ) : ℝ := e.diag - e.sub * p.sup

/-- The equation that says that nothing comes before a system. -/
noncomputable def Eliminated.nothing : Eliminated ℝ := ⟨0, 0⟩

theorem eliminate_some (p : Eliminated ℝ) (e : Equation ℝ) :
    eliminate (some p) e = ⟨e.sup / e.pivot p, (e.rhs - e.sub * p.rhs) / e.pivot p⟩ := rfl

theorem eliminate_none (e : Equation ℝ) :
    eliminate none e = eliminate (some Eliminated.nothing) e := by
  simp only [eliminate, Eliminated.nothing, mul_zero, sub_zero]

/-- The eliminated equations from the first one on. -/
noncomputable def sweep (p : Eliminated ℝ) : List (Equation ℝ) → List (Eliminated ℝ)
  | [] => []
  | e :: system => eliminate (some p) e :: sweep (eliminate (some p) e) system

/-- What the equations of a system are divided by, from the first one on. -/
noncomputable def pivots (p : Eliminated ℝ) : List (Equation ℝ) → List ℝ
  | [] => []
  | e :: system => e.pivot p :: pivots (eliminate (some p) e) system

/-- The unknowns that eliminated equations determine, from the first one on. -/
noncomputable def unwind (rows : List (Eliminated ℝ)) : List ℝ :=
  rows.foldr (fun e after => substitute after e) []

theorem forward_eq (system : List (Equation ℝ)) :
    forward system = (sweep Eliminated.nothing system).reverse := by
  have hrun (done : List (Eliminated ℝ)) (p : Eliminated ℝ)
      (hp : ∀ e : Equation ℝ, eliminate done.head? e = eliminate (some p) e) :
      system.foldl (fun done e => eliminate done.head? e :: done) done =
        (sweep p system).reverse ++ done := by
    induction system generalizing done p with
    | nil => rfl
    | cons e system ih =>
      rw [List.foldl_cons, hp e, ih _ (eliminate (some p) e) fun _ => rfl, sweep,
        List.reverse_cons, List.append_assoc]
      rfl
  rw [forward, hrun [] Eliminated.nothing eliminate_none, List.append_nil]

theorem solveTridiagonal_eq (system : List (Equation ℝ)) :
    solveTridiagonal system = unwind (sweep Eliminated.nothing system) := by
  rw [solveTridiagonal, forward_eq, List.foldl_reverse]
  rfl

theorem substitute_eq (after : List ℝ) (e : Eliminated ℝ) :
    substitute after e = (e.rhs - e.sup * after.getD 0 0) :: after := by
  cases after with
  | nil => simp [substitute]
  | cons v rest => rfl

theorem unwind_cons (e : Eliminated ℝ) (rows : List (Eliminated ℝ)) :
    unwind (e :: rows) = (e.rhs - e.sup * (unwind rows).getD 0 0) :: unwind rows :=
  substitute_eq _ _

/-! ## Solutions -/

/-- Numbers that solve a system. The unknown before the first one is `before`, the one after the
last one is zero. -/
structure Solves (before : ℝ) (system : List (Equation ℝ)) (xs : List ℝ) : Prop where
  length_eq : xs.length = system.length
  equation : ∀ (i : ℕ) (e : Equation ℝ), system[i]? = some e →
    e.sub * (before :: xs).getD i 0 + e.diag * xs.getD i 0 + e.sup * xs.getD (i + 1) 0 = e.rhs

theorem solves_nil (before : ℝ) : Solves before [] [] := by
  refine ⟨rfl, ?_⟩
  intro i e he
  simp at he

/-- A system is solved equation by equation, each one next to the unknown before it. -/
theorem solves_cons_iff {before v : ℝ} {e : Equation ℝ} {system : List (Equation ℝ)}
    {xs : List ℝ} : Solves before (e :: system) (v :: xs) ↔
      e.sub * before + e.diag * v + e.sup * xs.getD 0 0 = e.rhs ∧ Solves v system xs := by
  constructor
  · intro h
    refine ⟨h.equation 0 e rfl, Nat.succ.inj h.length_eq, ?_⟩
    intro i e' he'
    exact h.equation (i + 1) e' he'
  · rintro ⟨hfirst, hrest⟩
    refine ⟨congrArg Nat.succ hrest.length_eq, ?_⟩
    intro i e' he'
    cases i with
    | zero =>
      cases he'
      exact hfirst
    | succ i => exact hrest.equation i e' he'

/-- The first equation of a system, from the equation that it is eliminated to. -/
theorem equation_of_eliminate {e : Equation ℝ} {p : Eliminated ℝ} (h : e.pivot p ≠ 0) {v w : ℝ}
    (hv : v = (eliminate (some p) e).rhs - (eliminate (some p) e).sup * w) :
    e.sub * (p.rhs - p.sup * v) + e.diag * v + e.sup * w = e.rhs := by
  have hpivot : e.pivot p * v = e.rhs - e.sub * p.rhs - e.sup * w := by
    rw [hv, eliminate_some]
    field_simp
  rw [Equation.pivot] at hpivot
  linear_combination hpivot

/-- The unknowns read off after any equation `p` solve the rest of a system. -/
theorem solves_unwind {system : List (Equation ℝ)} {p : Eliminated ℝ}
    (h : ∀ d ∈ pivots p system, d ≠ 0) :
    Solves (p.rhs - p.sup * (unwind (sweep p system)).getD 0 0) system
      (unwind (sweep p system)) := by
  induction system generalizing p with
  | nil => exact solves_nil _
  | cons e system ih =>
    obtain ⟨hpivot, hrest⟩ := List.forall_mem_cons.mp h
    rw [sweep, unwind_cons]
    exact solves_cons_iff.mpr ⟨equation_of_eliminate hpivot rfl, ih hrest⟩

/-- **Elimination.** If no pivot of a system is zero, its solution is found. -/
theorem solves_solveTridiagonal {system : List (Equation ℝ)}
    (h : ∀ d ∈ pivots Eliminated.nothing system, d ≠ 0) :
    Solves 0 system (solveTridiagonal system) := by
  have hsolves := solves_unwind h
  rw [← solveTridiagonal_eq, Eliminated.nothing, zero_mul, sub_zero] at hsolves
  exact hsolves

/-! ## Pivots -/

/-- Whether the diagonal entry outweighs the other two. -/
def Equation.IsDominant (e : Equation ℝ) : Prop := |e.sub| + |e.sup| < |e.diag|

/-- A pivot outweighs the upper entry, since it keeps more of the diagonal than that. -/
theorem Equation.IsDominant.abs_sup_lt {e : Equation ℝ} (he : e.IsDominant) {p : Eliminated ℝ}
    (hp : |p.sup| < 1) : |e.sup| < |e.pivot p| := by
  have hsub : |e.sub * p.sup| ≤ |e.sub| := by
    rw [abs_mul]
    exact mul_le_of_le_one_right (abs_nonneg _) hp.le
  have hpivot : |e.diag| - |e.sub * p.sup| ≤ |e.pivot p| := abs_sub_abs_le_abs_sub _ _
  rw [IsDominant] at he
  linarith

theorem pivots_ne_zero {system : List (Equation ℝ)} (h : ∀ e ∈ system, e.IsDominant)
    {p : Eliminated ℝ} (hp : |p.sup| < 1) : ∀ d ∈ pivots p system, d ≠ 0 := by
  induction system generalizing p with
  | nil => simp [pivots]
  | cons e system ih =>
    obtain ⟨he, hrest⟩ := List.forall_mem_cons.mp h
    have hsup := he.abs_sup_lt hp
    have hpos : 0 < |e.pivot p| := (abs_nonneg _).trans_lt hsup
    have hnext : |(eliminate (some p) e).sup| < 1 := by
      rw [eliminate_some, abs_div, div_lt_one hpos]
      exact hsup
    rw [pivots, List.forall_mem_cons]
    exact ⟨abs_pos.mp hpos, ih hrest hnext⟩

/-- No pivot of a dominant system is zero. -/
theorem pivots_ne_zero_of_isDominant {system : List (Equation ℝ)}
    (h : ∀ e ∈ system, e.IsDominant) : ∀ d ∈ pivots Eliminated.nothing system, d ≠ 0 := by
  refine pivots_ne_zero h ?_
  rw [Eliminated.nothing, abs_zero]
  exact zero_lt_one

end GyroDelay.Spline

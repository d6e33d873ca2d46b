import Mathlib.Data.EReal.Basic
import GyroDelay.Proofs.Doubles.Order

/-!
# The order of all doubles

A double that is a number stands for an extended real number: a finite one for the rational number
that it is, the infinities for the ends of the line. Comparing two such doubles is comparing these
(`lt_iff_extended_lt`, `le_iff_extended_le`). A double that is not a number has no order to any
double (`compare_of_isNaN`). Put where minus infinity is, it is still above no other
(`lt_iff_extended_lt_of_left`).
-/

namespace GyroDelay.Doubles

open Float.Model Float.Model.UnpackedFloat

/-- The extended real number that a double stands for. What is not a number is put where minus
infinity is. -/
noncomputable def extended : UnpackedFloat → EReal
  | .infinity .positive => ⊤
  | .infinity .negative => ⊥
  | .notANumber => ⊥
  | u => ((content u : ℝ) : EReal)

/-! ## Kinds of doubles -/

theorem value_cases (x : Float) : x.isFinite = true ∨ (∃ s, value x = .infinity s) ∨
    value x = .notANumber := by
  rw [isFinite_eq]
  cases value x with
  | infinity s => exact .inr (.inl ⟨s, rfl⟩)
  | notANumber => exact .inr (.inr rfl)
  | zero s => exact .inl rfl
  | finite s m e hm => exact .inl rfl

theorem isNaN_iff (x : Float) : x.isNaN = true ↔ value x = .notANumber := by
  rw [isNaN_eq]
  cases value x <;> simp [UnpackedFloat.isNaN]

theorem extended_of_isFinite {x : Float} (h : x.isFinite = true) :
    extended (value x) = ((content (value x) : ℝ) : EReal) := by
  obtain ⟨s, hx⟩ | ⟨s, m, e, hm, hx, -⟩ := value_spec h <;> rw [hx] <;> rfl

/-! ## Comparisons -/

theorem compare_coe (a b : ℚ) : compare ((a : ℝ) : EReal) ((b : ℝ) : EReal) = compare a b := by
  have hmono : StrictMono fun q : ℚ => ((q : ℝ) : EReal) :=
    EReal.coe_strictMono.comp Rat.cast_strictMono
  rw [← cmp_eq_compare, ← cmp_eq_compare]
  exact hmono.cmp_map_eq a b

/-- A finite double is below plus infinity and above minus infinity. -/
theorem compare_infinity {x : Float} (h : x.isFinite = true) (s : Sign) :
    (value x).compare (.infinity s) =
        some (compare (extended (value x)) (extended (.infinity s))) ∧
      (UnpackedFloat.infinity s).compare (value x) =
        some (compare (extended (.infinity s)) (extended (value x))) := by
  rw [extended_of_isFinite h]
  cases s with
  | positive =>
    have hlt := EReal.coe_lt_top (content (value x) : ℝ)
    rw [extended, compare_lt_iff_lt.mpr hlt, compare_gt_iff_gt.mpr hlt]
    obtain ⟨t, hx⟩ | ⟨t, m, e, hm, hx, -⟩ := value_spec h
    · rw [hx]
      exact ⟨rfl, rfl⟩
    · rw [hx]
      cases t <;> exact ⟨rfl, rfl⟩
  | negative =>
    have hlt := EReal.bot_lt_coe (content (value x) : ℝ)
    rw [extended, compare_gt_iff_gt.mpr hlt, compare_lt_iff_lt.mpr hlt]
    obtain ⟨t, hx⟩ | ⟨t, m, e, hm, hx, -⟩ := value_spec h
    · rw [hx]
      exact ⟨rfl, rfl⟩
    · rw [hx]
      cases t <;> exact ⟨rfl, rfl⟩

theorem compare_infinities (s s' : Sign) :
    (UnpackedFloat.infinity s).compare (.infinity s') =
      some (compare (extended (.infinity s)) (extended (.infinity s'))) := by
  cases s <;> cases s'
  · rw [compare_eq_iff_eq.mpr rfl]
    rfl
  · rw [extended, extended, compare_lt_iff_lt.mpr bot_lt_top]
    rfl
  · rw [extended, extended, compare_gt_iff_gt.mpr bot_lt_top]
    rfl
  · rw [compare_eq_iff_eq.mpr rfl]
    rfl

section Numbers

variable {x y : Float} (hx : x.isNaN = false) (hy : y.isNaN = false)

include hx hy

/-- **Doubles that are numbers are compared as the extended real numbers that they stand for.** -/
theorem compare_extended :
    (value x).compare (value y) = some (compare (extended (value x)) (extended (value y))) := by
  have hnumber {z : Float} (hz : z.isNaN = false) : value z ≠ .notANumber := fun h =>
    Bool.false_ne_true (hz.symm.trans ((isNaN_iff z).mpr h))
  rcases value_cases x with hfinite | ⟨s, hvalue⟩ | hnot
  · rcases value_cases y with hfinite' | ⟨s', hvalue'⟩ | hnot'
    · rw [compare_value hfinite hfinite', extended_of_isFinite hfinite,
        extended_of_isFinite hfinite', compare_coe]
    · rw [hvalue']
      exact (compare_infinity hfinite s').1
    · exact absurd hnot' (hnumber hy)
  · rcases value_cases y with hfinite' | ⟨s', hvalue'⟩ | hnot'
    · rw [hvalue]
      exact (compare_infinity hfinite' s).2
    · rw [hvalue, hvalue']
      exact compare_infinities s s'
    · exact absurd hnot' (hnumber hy)
  · exact absurd hnot (hnumber hx)

theorem lt_iff_extended_lt : x < y ↔ extended (value x) < extended (value y) := by
  rw [lt_iff, UnpackedFloat.lt, compare_extended hx hy, ← compare_lt_iff_lt]
  exact beq_iff_eq.trans Option.some_inj

theorem le_iff_extended_le : x ≤ y ↔ extended (value x) ≤ extended (value y) := by
  rw [le_iff, UnpackedFloat.le, compare_extended hx hy, ← compare_le_iff_le]
  exact Ordering.isLE_iff_ne_gt

end Numbers

/-! ## Doubles that are not numbers -/

theorem compare_of_isNaN {x y : Float} (h : x.isNaN = true ∨ y.isNaN = true) :
    (value x).compare (value y) = none := by
  rw [isNaN_iff, isNaN_iff] at h
  rcases h with h | h
  · rw [h]
    rfl
  · rw [h]
    cases value x <;> rfl

theorem not_lt_of_isNaN {x y : Float} (h : x.isNaN = true ∨ y.isNaN = true) : ¬ x < y := by
  rw [lt_iff, UnpackedFloat.lt, compare_of_isNaN h]
  exact Bool.false_ne_true

theorem extended_of_isNaN {x : Float} (h : x.isNaN = true) : extended (value x) = ⊥ := by
  rw [(isNaN_iff x).mp h]
  rfl

/-- What is not a number is above nothing, as if it were minus infinity. -/
theorem lt_iff_extended_lt_of_left {x : Float} (hx : x.isNaN = false) (y : Float) :
    x < y ↔ extended (value x) < extended (value y) := by
  by_cases hy : y.isNaN = true
  · rw [extended_of_isNaN hy]
    exact iff_of_false (not_lt_of_isNaN (.inr hy)) not_lt_bot
  · exact lt_iff_extended_lt hx (Bool.eq_false_of_not_eq_true hy)

end GyroDelay.Doubles

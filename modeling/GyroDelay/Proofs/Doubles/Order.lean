import GyroDelay.Proofs.Doubles

/-!
# The order of finite doubles

A finite double stands for a rational number, and comparing two of them is comparing these
numbers (`compare_value`). So finite doubles are ordered linearly, up to the two zeros: what is
not at most another one is above it (`not_le_iff`), although this fails for doubles that are not
numbers.
-/

namespace GyroDelay.Doubles

open Float.Model Float.Model.UnpackedFloat

/-- The number that a finite double stands for. -/
def content : UnpackedFloat → ℚ
  | .finite s m e _ => (s.apply m : ℤ) * 2 ^ e
  | .zero _ | .infinity _ | .notANumber => 0

/-! ## Magnitudes -/

theorem IsNormal.two_pow_le {m : ℕ} {e : ℤ} (h : IsNormal m e) (he : -1074 < e) (hm : 0 < m) :
    2 ^ 52 ≤ m := by
  have hlog : m.log2 = 52 := by
    have htarget := h.target
    omega
  exact hlog ▸ Nat.log2_self_le hm.ne'

theorem IsNormal.neg_le {m : ℕ} {e : ℤ} (h : IsNormal m e) : -1074 ≤ e := by
  have htarget := h.target
  omega

theorem magnitude_lt_of_exponent_lt {m m' : ℕ} {e e' : ℤ} (h : IsNormal m e)
    (h' : IsNormal m' e') (hm' : 0 < m') (he : e < e') : (m : ℚ) * 2 ^ e < m' * 2 ^ e' := by
  have hle := h.neg_le
  have hm : (m : ℚ) < 2 ^ (53 : ℤ) := by exact_mod_cast h.lt
  have hlow : (2 : ℚ) ^ (52 : ℤ) ≤ m' := by exact_mod_cast h'.two_pow_le (by omega) hm'
  calc (m : ℚ) * 2 ^ e < 2 ^ (53 : ℤ) * 2 ^ e := by gcongr
    _ = 2 ^ (52 : ℤ) * 2 ^ (e + 1) := by
      rw [← zpow_add₀ two_ne_zero, ← zpow_add₀ two_ne_zero]
      congr 1
      omega
    _ ≤ 2 ^ (52 : ℤ) * 2 ^ e' := by
      gcongr
      · exact one_le_two
      · omega
    _ ≤ m' * 2 ^ e' := by gcongr

/-- Exponents count before significands, since significands of one exponent are less than twice
as large as those of the next. -/
theorem compare_magnitude {m m' : ℕ} {e e' : ℤ} (h : IsNormal m e) (h' : IsNormal m' e')
    (hm : 0 < m) (hm' : 0 < m') :
    (compare e e').then (compare m m') = compare ((m : ℚ) * 2 ^ e) (m' * 2 ^ e') := by
  rcases lt_trichotomy e e' with he | rfl | he
  · rw [compare_lt_iff_lt.mpr he,
      compare_lt_iff_lt.mpr (magnitude_lt_of_exponent_lt h h' hm' he)]
    rfl
  · have hpos : (0 : ℚ) < 2 ^ e := zpow_pos two_pos e
    rw [compare_eq_iff_eq.mpr rfl]
    change compare m m' = _
    rcases lt_trichotomy m m' with hlt | rfl | hlt
    · rw [compare_lt_iff_lt.mpr hlt,
        compare_lt_iff_lt.mpr (mul_lt_mul_of_pos_right (Nat.cast_lt.mpr hlt) hpos)]
    · rw [compare_eq_iff_eq.mpr rfl, compare_eq_iff_eq.mpr rfl]
    · rw [compare_gt_iff_gt.mpr hlt,
        compare_gt_iff_gt.mpr (mul_lt_mul_of_pos_right (Nat.cast_lt.mpr hlt) hpos)]
  · rw [compare_gt_iff_gt.mpr he,
      compare_gt_iff_gt.mpr (magnitude_lt_of_exponent_lt h' h hm he)]
    rfl

theorem swap_compare (a b : ℚ) : (compare a b).swap = compare (-a) (-b) := by
  rcases lt_trichotomy a b with h | rfl | h
  · rw [compare_lt_iff_lt.mpr h, compare_gt_iff_gt.mpr (neg_lt_neg h)]
    rfl
  · rw [compare_eq_iff_eq.mpr rfl, compare_eq_iff_eq.mpr rfl]
    rfl
  · rw [compare_gt_iff_gt.mpr h, compare_lt_iff_lt.mpr (neg_lt_neg h)]
    rfl

/-! ## Signs -/

theorem content_zero (s : Sign) : content (.zero s) = 0 := rfl

theorem content_positive (m : ℕ) (e : ℤ) (hm : 0 < m) :
    content (.finite .positive m e hm) = m * 2 ^ e := by
  simp [content, Sign.apply]

theorem content_negative (m : ℕ) (e : ℤ) (hm : 0 < m) :
    content (.finite .negative m e hm) = -(m * 2 ^ e) := by
  simp [content, Sign.apply]

theorem magnitude_pos {m : ℕ} (hm : 0 < m) (e : ℤ) : (0 : ℚ) < m * 2 ^ e :=
  mul_pos (Nat.cast_pos.mpr hm) (zpow_pos two_pos e)

/-- **Finite doubles are compared as the numbers that they stand for.** -/
theorem compare_value {x y : Float} (hx : x.isFinite = true) (hy : y.isFinite = true) :
    (value x).compare (value y) = some (compare (content (value x)) (content (value y))) := by
  obtain ⟨s, hx⟩ | ⟨s, m, e, hm, hx, hnormal⟩ := value_spec hx <;>
    obtain ⟨s', hy⟩ | ⟨s', m', e', hm', hy, hnormal'⟩ := value_spec hy <;> rw [hx, hy]
  · rfl
  · cases s' with
    | positive =>
      rw [content_zero, content_positive, compare_lt_iff_lt.mpr (magnitude_pos hm' e')]
      rfl
    | negative =>
      rw [content_zero, content_negative,
        compare_gt_iff_gt.mpr (neg_lt_zero.mpr (magnitude_pos hm' e'))]
      rfl
  · cases s with
    | positive =>
      rw [content_zero, content_positive, compare_gt_iff_gt.mpr (magnitude_pos hm e)]
      rfl
    | negative =>
      rw [content_zero, content_negative,
        compare_lt_iff_lt.mpr (neg_lt_zero.mpr (magnitude_pos hm e))]
      rfl
  · have hpos := magnitude_pos hm e
    have hpos' := magnitude_pos hm' e'
    cases s <;> cases s'
    · rw [content_negative, content_negative, ← swap_compare,
        ← compare_magnitude hnormal hnormal' hm hm']
      rfl
    · rw [content_negative, content_positive, compare_lt_iff_lt.mpr (by linarith)]
      rfl
    · rw [content_positive, content_negative, compare_gt_iff_gt.mpr (by linarith)]
      rfl
    · rw [content_positive, content_positive, ← compare_magnitude hnormal hnormal' hm hm']
      rfl

/-! ## The order -/

theorem lt_iff (x y : Float) : x < y ↔ (value x).lt (value y) = true := by
  change decide ((value x).lt (value y) = true) = true ↔ _
  exact decide_eq_true_iff

section Finite

variable {x y : Float} (hx : x.isFinite = true) (hy : y.isFinite = true)

include hx hy

theorem lt_iff_content_lt : x < y ↔ content (value x) < content (value y) := by
  rw [lt_iff, UnpackedFloat.lt, compare_value hx hy, ← compare_lt_iff_lt]
  exact beq_iff_eq.trans Option.some_inj

theorem le_iff_content_le : x ≤ y ↔ content (value x) ≤ content (value y) := by
  rw [le_iff, UnpackedFloat.le, compare_value hx hy, ← compare_le_iff_le]
  exact Ordering.isLE_iff_ne_gt

theorem not_le_iff : ¬ y ≤ x ↔ x < y := by
  rw [le_iff_content_le hy hx, lt_iff_content_lt hx hy, not_le]

end Finite

end GyroDelay.Doubles

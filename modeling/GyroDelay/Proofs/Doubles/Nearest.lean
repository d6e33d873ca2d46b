import GyroDelay.Proofs.Doubles.Order

/-!
# Rounding to the nearest double

A nonnegative number is rounded on the grid of its magnitude, whose step is a power of two, to the
nearest point of it, and to the even one of two that are equally near (`rounded`). Rounding is
monotone (`rounded_mono`), because the grid of a larger number is not finer and the last point of
one grid is on the next. Natural numbers of 53 bits round to themselves (`rounded_natCast`).

An operation on doubles cuts its exact result off and remembers in two bits what it has left out
(`Holds`). That is all that rounding needs to find the nearest double (`round_positive`).
-/

namespace GyroDelay.Doubles

/-! ## Natural numbers -/

/-- The natural number nearest to a nonnegative number, the even one of two. -/
def nearestEven (x : ℚ) : ℕ :=
  match compare (2 * (x - ⌊x⌋₊)) 1 with
  | .lt => ⌊x⌋₊
  | .eq => ⌊x⌋₊ + ⌊x⌋₊ % 2
  | .gt => ⌊x⌋₊ + 1

theorem nearestEven_cases (x : ℚ) :
    2 * (x - ⌊x⌋₊) < 1 ∧ nearestEven x = ⌊x⌋₊ ∨
      2 * (x - ⌊x⌋₊) = 1 ∧ nearestEven x = ⌊x⌋₊ + ⌊x⌋₊ % 2 ∨
      1 < 2 * (x - ⌊x⌋₊) ∧ nearestEven x = ⌊x⌋₊ + 1 := by
  rw [nearestEven]
  rcases lt_trichotomy (2 * (x - ⌊x⌋₊)) 1 with h | h | h
  · rw [compare_lt_iff_lt.mpr h]
    exact .inl ⟨h, rfl⟩
  · rw [compare_eq_iff_eq.mpr h]
    exact .inr (.inl ⟨h, rfl⟩)
  · rw [compare_gt_iff_gt.mpr h]
    exact .inr (.inr ⟨h, rfl⟩)

theorem nearestEven_natCast (n : ℕ) : nearestEven n = n := by
  have h := nearestEven_cases n
  rw [Nat.floor_natCast, sub_self, mul_zero] at h
  rcases h with ⟨-, h⟩ | ⟨h, -⟩ | ⟨h, -⟩
  · exact h
  · exact absurd h zero_ne_one
  · exact absurd h (not_lt.mpr zero_le_one)

theorem nearestEven_mono {x y : ℚ} (h : x ≤ y) : nearestEven x ≤ nearestEven y := by
  have hfloor := Nat.floor_mono h
  rcases hfloor.lt_or_eq with hlt | heq
  -- an integer lies between two numbers with different integral parts, or is the larger one
  · rcases nearestEven_cases x with ⟨-, hx⟩ | ⟨-, hx⟩ | ⟨-, hx⟩ <;>
      rcases nearestEven_cases y with ⟨-, hy⟩ | ⟨-, hy⟩ | ⟨-, hy⟩ <;> omega
  · have hcast : (⌊x⌋₊ : ℚ) = ⌊y⌋₊ := congrArg _ heq
    rcases nearestEven_cases x with ⟨hx, hx'⟩ | ⟨hx, hx'⟩ | ⟨hx, hx'⟩ <;>
      rcases nearestEven_cases y with ⟨hy, hy'⟩ | ⟨hy, hy'⟩ | ⟨hy, hy'⟩ <;>
      first | omega | linarith

theorem abs_nearestEven_sub_le {x : ℚ} (hx : 0 ≤ x) : |(nearestEven x : ℚ) - x| ≤ 1 / 2 := by
  have hle := Nat.floor_le hx
  have hlt := Nat.lt_floor_add_one x
  have hbit : ((⌊x⌋₊ % 2 : ℕ) : ℚ) ≤ 1 := by
    exact_mod_cast Nat.lt_succ_iff.mp (Nat.mod_lt _ two_pos)
  have hbit' : (0 : ℚ) ≤ (⌊x⌋₊ % 2 : ℕ) := Nat.cast_nonneg _
  rw [abs_le]
  rcases nearestEven_cases x with ⟨h, hx⟩ | ⟨h, hx⟩ | ⟨h, hx⟩ <;> rw [hx] <;> push_cast <;>
    constructor <;> linarith

/-! ## The grid -/

/-- The exponent of the step with which numbers of a magnitude are rounded. -/
def gridExponent (v : ℚ) : ℤ := max (Int.log 2 v - 52) (-1074)

/-- The double nearest to a nonnegative number, were there no largest one. -/
def rounded (v : ℚ) : ℚ := nearestEven (v / 2 ^ gridExponent v) * 2 ^ gridExponent v

theorem two_zpow_pos (e : ℤ) : (0 : ℚ) < 2 ^ e := zpow_pos two_pos e

theorem rounded_zero : rounded 0 = 0 := by
  rw [rounded, zero_div, ← Nat.cast_zero, nearestEven_natCast, Nat.cast_zero, zero_mul]

theorem rounded_nonneg (v : ℚ) : 0 ≤ rounded v :=
  mul_nonneg (Nat.cast_nonneg _) (two_zpow_pos _).le

theorem gridExponent_mono {v w : ℚ} (hv : 0 < v) (h : v ≤ w) : gridExponent v ≤ gridExponent w :=
  max_le_max_right _ (sub_le_sub_right (Int.log_mono_right hv h) _)

/-- A number is less than two to the power of 53 steps of its grid. -/
theorem div_gridExponent_lt (v : ℚ) : v / 2 ^ gridExponent v < (2 ^ 53 : ℕ) := by
  rw [div_lt_iff₀ (two_zpow_pos _)]
  calc v < 2 ^ (Int.log 2 v + 1) := by exact_mod_cast Int.lt_zpow_succ_log_self one_lt_two v
    _ ≤ 2 ^ (53 + gridExponent v) :=
      zpow_le_zpow_right₀ one_le_two (by unfold gridExponent; omega)
    _ = (2 ^ 53 : ℕ) * 2 ^ gridExponent v := by
      rw [zpow_add₀ two_ne_zero]
      norm_num

/-- A number whose grid is not the finest one has at least two to the power of 52 steps. -/
theorem le_div_gridExponent {v : ℚ} (hv : 0 < v) (h : -1074 < gridExponent v) :
    ((2 ^ 52 : ℕ) : ℚ) ≤ v / 2 ^ gridExponent v := by
  rw [le_div_iff₀ (two_zpow_pos _)]
  calc ((2 ^ 52 : ℕ) : ℚ) * 2 ^ gridExponent v = 2 ^ (52 + gridExponent v) := by
        rw [zpow_add₀ two_ne_zero]
        norm_num
    _ = 2 ^ Int.log 2 v := by
      congr 1
      unfold gridExponent at h ⊢
      omega
    _ ≤ v := by exact_mod_cast Int.zpow_log_le_self one_lt_two hv

theorem nearestEven_grid_le (v : ℚ) : nearestEven (v / 2 ^ gridExponent v) ≤ 2 ^ 53 :=
  (nearestEven_mono (div_gridExponent_lt v).le).trans_eq (nearestEven_natCast _)

theorem le_nearestEven_grid {v : ℚ} (hv : 0 < v) (h : -1074 < gridExponent v) :
    2 ^ 52 ≤ nearestEven (v / 2 ^ gridExponent v) :=
  (nearestEven_natCast _).symm.trans_le (nearestEven_mono (le_div_gridExponent hv h))

/-- **Rounding is monotone.** -/
theorem rounded_mono {v w : ℚ} (hv : 0 ≤ v) (h : v ≤ w) : rounded v ≤ rounded w := by
  rcases hv.eq_or_lt with rfl | hv
  · rw [rounded_zero]
    exact rounded_nonneg w
  · rcases (gridExponent_mono hv h).eq_or_lt with heq | hlt
    · rw [rounded, rounded, heq]
      have hdiv : v / 2 ^ gridExponent w ≤ w / 2 ^ gridExponent w := by gcongr
      exact mul_le_mul_of_nonneg_right (Nat.cast_le.mpr (nearestEven_mono hdiv))
        (two_zpow_pos _).le
    -- the last point of a grid, at 2 ^ 53 of its steps, is at 2 ^ 52 steps of the next one
    · have hfinest : -1074 ≤ gridExponent v := le_max_right _ _
      have hhigh : (nearestEven (v / 2 ^ gridExponent v) : ℚ) ≤ 2 ^ (53 : ℤ) := by
        exact_mod_cast nearestEven_grid_le v
      have hlow : (2 : ℚ) ^ (52 : ℤ) ≤ nearestEven (w / 2 ^ gridExponent w) := by
        exact_mod_cast le_nearestEven_grid (hv.trans_le h) (by omega)
      calc rounded v ≤ 2 ^ (53 : ℤ) * 2 ^ gridExponent v :=
            mul_le_mul_of_nonneg_right hhigh (two_zpow_pos _).le
        _ = 2 ^ (52 : ℤ) * 2 ^ (gridExponent v + 1) := by
          rw [← zpow_add₀ two_ne_zero, ← zpow_add₀ two_ne_zero]
          congr 1
          omega
        _ ≤ 2 ^ (52 : ℤ) * 2 ^ gridExponent w := by
          gcongr
          · exact one_le_two
          · omega
        _ ≤ rounded w := mul_le_mul_of_nonneg_right hlow (two_zpow_pos _).le

/-- The relative error of rounding a number that is not below the least normal double. -/
theorem abs_rounded_sub_le {v : ℚ} (hv : 0 < v) (h : -1022 ≤ Int.log 2 v) :
    |rounded v - v| ≤ v * 2 ^ (-53 : ℤ) := by
  have hstep := two_zpow_pos (gridExponent v)
  have hself : v / 2 ^ gridExponent v * 2 ^ gridExponent v = v :=
    div_mul_cancel₀ v hstep.ne'
  have hnear := abs_nearestEven_sub_le (div_nonneg hv.le hstep.le)
  calc |rounded v - v| = |(nearestEven (v / 2 ^ gridExponent v) : ℚ) - v / 2 ^ gridExponent v| *
        2 ^ gridExponent v := by
        rw [← abs_of_pos hstep, ← abs_mul, sub_mul, abs_of_pos hstep, hself, rounded]
    _ ≤ 1 / 2 * 2 ^ gridExponent v := mul_le_mul_of_nonneg_right hnear hstep.le
    _ = 2 ^ Int.log 2 v * 2 ^ (-53 : ℤ) := by
      have hgrid : gridExponent v = Int.log 2 v - 52 := by
        unfold gridExponent
        omega
      rw [hgrid, one_div, ← zpow_neg_one, ← zpow_add₀ two_ne_zero, ← zpow_add₀ two_ne_zero]
      congr 1
      omega
    _ ≤ v * 2 ^ (-53 : ℤ) := by
      gcongr
      exact_mod_cast Int.zpow_log_le_self one_lt_two hv

/-- The magnitude of a number whose integral part on some grid is known. -/
theorem log_eq {m : ℕ} (hm : 0 < m) {v : ℚ} {e : ℤ} (hle : (m : ℚ) ≤ v / 2 ^ e)
    (hlt : v / 2 ^ e < m + 1) : Int.log 2 v = m.log2 + e := by
  rw [le_div_iff₀ (two_zpow_pos e)] at hle
  rw [div_lt_iff₀ (two_zpow_pos e)] at hlt
  have hlow : (2 : ℚ) ^ (m.log2 : ℤ) ≤ m := by exact_mod_cast Nat.log2_self_le hm.ne'
  have hhigh : (m + 1 : ℚ) ≤ 2 ^ ((m.log2 : ℤ) + 1) := by
    exact_mod_cast Nat.succ_le_of_lt (Nat.lt_log2_self (n := m))
  have hpos : 0 < v := (magnitude_pos hm e).trans_le hle
  refine le_antisymm ?_ ?_
  · rw [← Int.lt_add_one_iff, ← Int.lt_zpow_iff_log_lt one_lt_two hpos, Nat.cast_ofNat,
      add_right_comm, zpow_add₀ two_ne_zero]
    exact hlt.trans_le (mul_le_mul_of_nonneg_right hhigh (two_zpow_pos e).le)
  · rw [← Int.zpow_le_iff_le_log one_lt_two hpos, Nat.cast_ofNat, zpow_add₀ two_ne_zero]
    exact (mul_le_mul_of_nonneg_right hlow (two_zpow_pos e).le).trans hle

theorem two_zpow_neg (k : ℕ) : (2 : ℚ) ^ (-k : ℤ) * (2 ^ k : ℕ) = 1 := by
  rw [Nat.cast_pow, Nat.cast_ofNat, ← zpow_natCast, ← zpow_add₀ two_ne_zero, neg_add_cancel,
    zpow_zero]

/-- A natural number as a significand with zeros at its end. -/
theorem natCast_div_zpow (n k : ℕ) : (n : ℚ) / 2 ^ (-k : ℤ) = (n * 2 ^ k : ℕ) := by
  rw [div_eq_iff (two_zpow_pos _).ne', Nat.cast_mul, mul_assoc, mul_comm _ ((2 : ℚ) ^ (-k : ℤ)),
    two_zpow_neg, mul_one]

/-- Natural numbers of 53 bits are doubles. -/
theorem rounded_natCast {n : ℕ} (h : n < 2 ^ 53) : rounded n = n := by
  rcases n.eq_zero_or_pos with rfl | hn
  · exact_mod_cast rounded_zero
  · have hlog := log2_lt_of_lt (by decide) h
    obtain ⟨k, hk⟩ : ∃ k : ℕ, gridExponent n = -k := by
      refine ⟨(-gridExponent n).toNat, ?_⟩
      rw [gridExponent, Int.log_natCast, ← Nat.log2_eq_log_two]
      omega
    rw [rounded, hk, natCast_div_zpow, nearestEven_natCast, Nat.cast_mul, mul_assoc,
      mul_comm _ ((2 : ℚ) ^ (-k : ℤ)), two_zpow_neg, mul_one]

theorem rounded_one : rounded 1 = 1 := by exact_mod_cast rounded_natCast (n := 1) (by decide)

/-! ## Rounding of significands -/

open Float.Model Float.Model.UnpackedFloat

/-- The number that a significand with its residual bits is cut off from. -/
structure Holds (em : ExtendedMantissa) (x : ℚ) : Prop where
  le : (em.mantissa : ℚ) ≤ x
  lt : x < em.mantissa + 1
  roundBit : em.roundBit = true ↔ 1 ≤ 2 * (x - em.mantissa)
  stickyBit : em.stickyBit = true ↔ x ≠ em.mantissa ∧ 2 * (x - em.mantissa) ≠ 1

namespace Holds

variable {em : ExtendedMantissa} {x : ℚ}

theorem floor_eq (h : Holds em x) : ⌊x⌋₊ = em.mantissa :=
  (Nat.floor_eq_iff ((Nat.cast_nonneg _).trans h.le)).mpr ⟨h.le, h.lt⟩

theorem roundedMantissa_eq (h : Holds em x) : em.roundedMantissa = nearestEven x := by
  have hcases := nearestEven_cases x
  rw [h.floor_eq] at hcases
  obtain ⟨hle, hlt, hround, hsticky⟩ := h
  obtain ⟨m, round, sticky⟩ := em
  dsimp only at hle hlt hround hsticky hcases
  cases round with
  | false =>
    have hsmall : 2 * (x - m) < 1 := not_le.mp (mt hround.mpr Bool.false_ne_true)
    have hrounded : (⟨m, false, sticky⟩ : ExtendedMantissa).roundedMantissa = m := by
      cases sticky <;> rfl
    rcases hcases with ⟨-, hx⟩ | ⟨heq, -⟩ | ⟨hgt, -⟩
    · rw [hrounded, hx]
    · exact absurd heq hsmall.ne
    · exact absurd hgt hsmall.not_gt
  | true =>
    have hlarge : 1 ≤ 2 * (x - m) := hround.mp rfl
    cases sticky with
    | false =>
      have heq : 2 * (x - m) = 1 := by
        by_contra hne
        refine Bool.false_ne_true (hsticky.mpr ⟨?_, hne⟩)
        rintro rfl
        rw [sub_self, mul_zero] at hlarge
        exact absurd hlarge (not_le.mpr zero_lt_one)
      rcases hcases with ⟨hlt', -⟩ | ⟨-, hx⟩ | ⟨hgt, -⟩
      · exact absurd heq hlt'.ne
      · exact hx.symm
      · exact absurd heq hgt.ne'
    | true =>
      have hne := (hsticky.mp rfl).2
      rcases hcases with ⟨hlt', -⟩ | ⟨heq, -⟩ | ⟨-, hx⟩
      · exact absurd hlarge (not_le.mpr hlt')
      · exact absurd heq hne
      · exact hx.symm

theorem shiftRightOne (h : Holds em x) : Holds em.shiftRightOne (x / 2) := by
  obtain ⟨hle, hlt, hround, hsticky⟩ := h
  obtain ⟨m, round, sticky⟩ := em
  dsimp only at hle hlt hround hsticky
  have hor : (round || sticky) = true ↔ x ≠ m := by
    rw [Bool.or_eq_true, hround, hsticky]
    constructor
    · rintro (h | ⟨h, -⟩) heq
      · linarith
      · exact h heq
    · intro hne
      by_cases hlarge : 1 ≤ 2 * (x - m)
      · exact .inl hlarge
      · exact .inr ⟨hne, fun heq => hlarge heq.ge⟩
  have hshift : (⟨m, round, sticky⟩ : ExtendedMantissa).shiftRightOne =
      ⟨m / 2, m % 2 != 0, round || sticky⟩ := rfl
  have hsplit : (m : ℚ) = 2 * (m / 2 : ℕ) + (m % 2 : ℕ) := by
    exact_mod_cast (Nat.div_add_mod m 2).symm
  rw [hshift]
  rcases Nat.mod_two_eq_zero_or_one m with hbit | hbit <;> rw [hbit] at hsplit ⊢ <;>
    push_cast at hsplit
  · refine ⟨by dsimp only; linarith, by dsimp only; linarith, ?_, ?_⟩
    · exact iff_of_false Bool.false_ne_true fun h => by dsimp only at h; linarith
    · rw [hor]
      dsimp only
      constructor
      · exact fun hne => ⟨fun heq => hne (by linarith), fun heq => by linarith⟩
      · exact fun h heq => h.1 (by linarith)
  · refine ⟨by dsimp only; linarith, by dsimp only; linarith, ?_, ?_⟩
    · exact iff_of_true rfl (by dsimp only; linarith)
    · rw [hor]
      dsimp only
      constructor
      · exact fun hne => ⟨fun heq => by linarith, fun heq => hne (by linarith)⟩
      · exact fun h heq => h.2 (by linarith)

theorem shiftRight (h : Holds em x) (k : ℕ) : Holds (em >>> k) (x / 2 ^ k) := by
  change Holds (k.repeat ExtendedMantissa.shiftRightOne em) _
  induction k with
  | zero => rwa [pow_zero, div_one]
  | succ k ih =>
    rw [pow_succ, ← div_div]
    exact ih.shiftRightOne

theorem exact (m : ℕ) : Holds ⟨m, false, false⟩ m := by
  refine ⟨le_rfl, lt_add_one _, ?_, ?_⟩
  · rw [sub_self, mul_zero]
    exact iff_of_false Bool.false_ne_true (not_le.mpr zero_lt_one)
  · exact iff_of_false Bool.false_ne_true fun h => h.1 rfl

theorem inexact {m : ℕ} (hlow : (m : ℚ) < x) (hhigh : x < m + 1) :
    Holds (.ofMantissaAndAccuracy m (.inexact (compare (2 * (x - m)) 1))) x := by
  rcases lt_trichotomy (2 * (x - m)) 1 with h | h | h
  · rw [compare_lt_iff_lt.mpr h]
    exact ⟨hlow.le, hhigh, iff_of_false Bool.false_ne_true (not_le.mpr h),
      iff_of_true rfl ⟨hlow.ne', h.ne⟩⟩
  · rw [compare_eq_iff_eq.mpr h]
    exact ⟨hlow.le, hhigh, iff_of_true rfl h.ge, iff_of_false Bool.false_ne_true fun h' => h'.2 h⟩
  · rw [compare_gt_iff_gt.mpr h]
    exact ⟨hlow.le, hhigh, iff_of_true rfl h.le, iff_of_true rfl ⟨hlow.ne', h.ne'⟩⟩

/-- What is left of a division says how the quotient is cut off. -/
theorem fraction (m : ℕ) {num den : ℕ} (h : num < den) :
    Holds (.ofMantissaAndAccuracy m (accuracyOfFraction num den)) (m + num / den) := by
  have hden : (0 : ℚ) < den := Nat.cast_pos.mpr (by omega)
  have hlt : (num / den : ℚ) < 1 := (div_lt_one hden).mpr (Nat.cast_lt.mpr h)
  rw [accuracyOfFraction]
  split
  · rename_i hzero
    rw [hzero, Nat.cast_zero, zero_div, add_zero]
    exact exact m
  · rename_i hnum
    have hpos : (0 : ℚ) < num / den := div_pos (Nat.cast_pos.mpr (by omega)) hden
    have hcompare : compare (2 * num) den = compare (2 * ((m : ℚ) + num / den - m)) 1 := by
      have hhalf : 2 * ((m : ℚ) + num / den - m) = (2 * num : ℕ) / den := by
        push_cast
        ring
      rw [hhalf]
      rcases lt_trichotomy (2 * num) den with hcmp | hcmp | hcmp
      · rw [compare_lt_iff_lt.mpr hcmp,
          compare_lt_iff_lt.mpr ((div_lt_one hden).mpr (Nat.cast_lt.mpr hcmp))]
      · rw [compare_eq_iff_eq.mpr hcmp, hcmp, compare_eq_iff_eq.mpr (div_self hden.ne')]
      · rw [compare_gt_iff_gt.mpr hcmp,
          compare_gt_iff_gt.mpr ((one_lt_div hden).mpr (Nat.cast_lt.mpr hcmp))]
    rw [hcompare]
    exact inexact (by linarith) (by linarith)

end Holds

/-! ## Rounding of numbers -/

/-- What a finite double can stand for. -/
def IsDouble : UnpackedFloat → Prop
  | .zero _ => True
  | .finite _ m e _ => IsNormal m e
  | .infinity _ | .notANumber => False

theorem mantissa_ofMantissaAndAccuracy (m : ℕ) (acc : Accuracy) :
    (ExtendedMantissa.ofMantissaAndAccuracy m acc).mantissa = m := by
  rcases acc with _ | _ | _ | _ <;> rfl

theorem shiftToTargetExponent_eq (m : ℕ) (e : ℤ) (acc : Accuracy) :
    shiftToTargetExponent Format.binary64 m e acc =
      (ExtendedMantissa.ofMantissaAndAccuracy m acc >>>
          (max (m.log2 + 1 + e - 53) (-1074) - e).toNat,
        e + (max (m.log2 + 1 + e - 53) (-1074) - e).toNat) := rfl

/-- A rounded significand of 54 bits is the first one of the next grid. -/
theorem shift_rounded {r : ℕ} {g : ℤ} (hr : r ≤ 2 ^ 53) (hg : -1074 ≤ g) (hg' : g ≤ 970)
    (hlow : -1074 < g → 2 ^ 52 ≤ r) :
    ∃ m' e', shiftToTargetExponent Format.binary64 r g .exact = (⟨m', false, false⟩, e') ∧
      (m' : ℚ) * 2 ^ e' = r * 2 ^ g ∧ (0 < m' → IsNormal m' e') := by
  rw [shiftToTargetExponent_exact]
  rcases hr.eq_or_lt with rfl | hlt
  · have hlog : (2 ^ 53 : ℕ).log2 = 53 := rfl
    have htarget : max (((2 ^ 53 : ℕ).log2 : ℤ) + 1 + g - 53) (-1074) - g = (1 : ℕ) := by
      rw [hlog]
      omega
    rw [htarget, Int.toNat_natCast]
    refine ⟨2 ^ 52, g + 1, rfl, ?_, fun _ => ⟨by decide, by omega, ?_⟩⟩
    · rw [zpow_add₀ two_ne_zero]
      norm_num
      ring
    · have hlog' : (2 ^ 52 : ℕ).log2 = 52 := rfl
      rw [hlog']
      omega
  · have hlog := log2_lt_of_lt (by decide) hlt
    have htarget : max ((r.log2 : ℤ) + 1 + g - 53) (-1074) - g = (0 : ℕ) := by
      by_cases hfinest : -1074 < g
      · have hlog' := (Nat.le_log2 (by have := hlow hfinest; omega)).mpr (hlow hfinest)
        omega
      · omega
    rw [htarget, Int.toNat_natCast, Nat.cast_zero, add_zero]
    exact ⟨r, g, rfl, rfl, fun _ => ⟨hlt, by omega, by omega⟩⟩

section Number

variable {m : ℕ} {e : ℤ} {v : ℚ} (hv : 0 < v) (he : e ≤ gridExponent v)

include hv he

/-- The target exponent of a significand is that of the number that it is cut off from. A
significand of zero has the magnitude of one, but then the grid is the finest one. -/
theorem target_eq (hle : (m : ℚ) ≤ v / 2 ^ e) (hlt : v / 2 ^ e < m + 1) :
    max (m.log2 + 1 + e - 53) (-1074) = gridExponent v := by
  rcases m.eq_zero_or_pos with rfl | hm
  · have hlog : Int.log 2 v < e := by
      rw [← Int.lt_zpow_iff_log_lt one_lt_two hv, Nat.cast_ofNat]
      rwa [Nat.cast_zero, zero_add, div_lt_one (two_zpow_pos e)] at hlt
    rw [gridExponent] at he ⊢
    rw [Nat.log2_zero, Nat.cast_zero]
    omega
  · rw [gridExponent, log_eq hm hle hlt]
    omega

/-- **Rounding gives the nearest double**, if there is no need for an infinite one. -/
theorem round_positive {acc : Accuracy} (hx : Holds (.ofMantissaAndAccuracy m acc) (v / 2 ^ e))
    (hlarge : v < 2 ^ (1000 : ℤ)) :
    IsDouble (roundWithAccuracy Format.binary64 .positive m e acc) ∧
      content (roundWithAccuracy Format.binary64 .positive m e acc) = rounded v := by
  have hm := mantissa_ofMantissaAndAccuracy m acc
  have htarget := target_eq hv he (hm ▸ hx.le) (hm ▸ hx.lt)
  obtain ⟨k, hk⟩ : ∃ k : ℕ, gridExponent v = e + k := ⟨(gridExponent v - e).toNat, by omega⟩
  have hquotient : v / 2 ^ e / 2 ^ k = v / 2 ^ gridExponent v := by
    rw [hk, zpow_add₀ two_ne_zero, div_div, zpow_natCast]
  have hfirst : shiftToTargetExponent Format.binary64 m e acc =
      (ExtendedMantissa.ofMantissaAndAccuracy m acc >>> k, gridExponent v) := by
    rw [shiftToTargetExponent_eq, htarget, hk, add_sub_cancel_left, Int.toNat_natCast]
  have hlog : Int.log 2 v < 1000 := by
    rwa [← Int.lt_zpow_iff_log_lt one_lt_two hv, Nat.cast_ofNat]
  have hfinest : -1074 ≤ gridExponent v := le_max_right _ _
  have hcoarsest : gridExponent v ≤ 970 := by
    unfold gridExponent
    omega
  obtain ⟨m', e', hsecond, hvalue, hnormal⟩ :=
    shift_rounded (nearestEven_grid_le v) hfinest hcoarsest (le_nearestEven_grid hv)
  rw [roundWithAccuracy, hfirst]
  dsimp only
  rw [(hx.shiftRight k).roundedMantissa_eq, hquotient, hsecond]
  dsimp only
  rw [rounded, ← hvalue]
  split
  · rename_i hzero
    rw [hzero, Nat.cast_zero, zero_mul]
    exact ⟨trivial, rfl⟩
  · rename_i hne
    exact ⟨hnormal (Nat.pos_of_ne_zero hne), content_positive m' e' _⟩

end Number

end GyroDelay.Doubles

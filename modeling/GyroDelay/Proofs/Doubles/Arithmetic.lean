import GyroDelay.Proofs.Doubles.Nearest

/-!
# Arithmetic of nonnegative doubles

Natural numbers, quotients and products are rounded exact results: a double holds what rounding
gives (`value_double`), and a quotient or a product is computed with all the bits that rounding
reads. So they are monotone, and a share of a whole that is given in percent lies between 0 and
100, however it is rounded (`share_spec`).
-/

namespace GyroDelay.Doubles

open Float.Model Float.Model.UnpackedFloat

/-! ## Packing and unpacking -/

theorem unpackSign_packComponents (s : Sign) (e : BitVec 11) (m : BitVec 52) :
    Sign.ofBitVec (@unpackSign Format.binary64 (packComponents Format.binary64 s e m)) = s := by
  simp only [unpackSign, packComponents, BitVec.extractLsb]
  rw [BitVec.extractLsb'_append_eq_of_le (by omega),
    BitVec.extractLsb'_append_eq_of_le (by omega)]
  cases s <;> rfl

theorem finite_congr {s s' : Sign} {m m' : ℕ} {e e' : ℤ} {hm : 0 < m} {hm' : 0 < m'}
    (hs : s = s') (h : m = m') (h' : e = e') :
    UnpackedFloat.finite s m e hm = .finite s' m' e' hm' := by
  subst hs h h'
  rfl

section Unpack

variable {b : BitVec 64} {s : Sign} {m : ℕ} (hm : 0 < m)
  (hsign : Sign.ofBitVec (@unpackSign Format.binary64 b) = s)

include hsign

theorem unpack_subnormal (hexponent : @unpackExponent Format.binary64 b = 0#11)
    (hmantissa : (@unpackMantissa Format.binary64 b).toNat = m) :
    UnpackedFloat.unpack Format.binary64 b = .finite s m (-1074) hm := by
  unfold UnpackedFloat.unpack
  dsimp only
  split
  · rename_i hinf
    rw [hexponent] at hinf
    exact absurd hinf (by decide)
  · split
    · rename_i hzero
      rw [hzero] at hmantissa
      exact absurd hmantissa hm.ne
    · refine finite_congr hsign hmantissa ?_
      rw [hexponent]
      rfl

theorem unpack_normal {e : ℤ} (he : -1074 ≤ e) (he' : e ≤ 971)
    (hexponent : (@unpackExponent Format.binary64 b).toNat = (e + 1075).toNat)
    (hmantissa : 2 ^ 52 + (@unpackMantissa Format.binary64 b).toNat = m) :
    UnpackedFloat.unpack Format.binary64 b = .finite s m e hm := by
  unfold UnpackedFloat.unpack
  dsimp only
  split
  · rename_i hinf
    rw [hinf] at hexponent
    change 2047 = _ at hexponent
    omega
  · split
    · rename_i hzero
      rw [hzero] at hexponent
      change 0 = _ at hexponent
      omega
    · refine finite_congr hsign ?_ ?_
      · rw [BitVec.toNat_append, ← Nat.shiftLeft_add_eq_or_of_lt (BitVec.isLt _)]
        exact hmantissa
      · rw [hexponent]
        change ((e + 1075).toNat : ℤ) - 1075 = e
        omega

end Unpack

/-- **A double holds what rounding gives.** -/
theorem value_double {u : UnpackedFloat} (h : IsDouble u) : value (double u) = u := by
  change UnpackedFloat.unpack Format.binary64 (UnpackedFloat.pack Format.binary64 u) = u
  cases u with
  | infinity s => exact h.elim
  | notANumber => exact h.elim
  | zero s => cases s <;> rfl
  | finite s m e hm =>
    have hnormal : IsNormal m e := h
    have hle := hnormal.le
    have hge := hnormal.neg_le
    have htarget := hnormal.target
    have hlog := log2_lt_of_lt (by decide) hnormal.lt
    change UnpackedFloat.unpack Format.binary64 (if 2 ^ 11 ≤ (e + 1023 + 52).toNat + 1 then
      packedInfinity Format.binary64 s
      else if m.log2 + 1 = 53 then packComponents Format.binary64 s
        (BitVec.ofNat 11 (e + 1023 + 52).toNat) (BitVec.ofNat 52 m)
      else packComponents Format.binary64 s 0#11 (BitVec.ofNat 52 m)) = _
    rw [if_neg (by omega)]
    split
    · rename_i h52
      have hlow : 2 ^ 52 ≤ m := by
        have hself := Nat.log2_self_le hm.ne'
        rwa [Nat.succ_injective h52] at hself
      have hlt := hnormal.lt
      refine unpack_normal hm (unpackSign_packComponents _ _ _) hge hle ?_ ?_
      · rw [unpackExponent_packComponents, BitVec.toNat_ofNat, add_assoc]
        exact Nat.mod_eq_of_lt (show (e + 1075).toNat < 2 ^ 11 by omega)
      · rw [unpackMantissa_packComponents, BitVec.toNat_ofNat]
        change 2 ^ 52 + m % 2 ^ 52 = m
        omega
    · rename_i h52
      have hlt : m < 2 ^ 52 := by
        by_contra hlow
        have hlow' := (Nat.le_log2 hm.ne').mpr (not_lt.mp hlow)
        omega
      obtain rfl : e = -1074 := by
        have hlog' := log2_lt_of_lt (by decide) hlt
        omega
      refine unpack_subnormal hm (unpackSign_packComponents _ _ _) ?_ ?_
      · exact unpackExponent_packComponents
      · rw [unpackMantissa_packComponents, BitVec.toNat_ofNat]
        exact Nat.mod_eq_of_lt hlt

/-! ## Operations -/

/-- A finite double and the number that it stands for. -/
structure Represents (x : Float) (v : ℚ) : Prop where
  finite : x.isFinite = true
  content_eq : content (value x) = v

theorem represents_double {u : UnpackedFloat} (h : IsDouble u) :
    Represents (double u) (content u) := by
  refine ⟨?_, by rw [value_double h]⟩
  rw [isFinite_eq, value_double h]
  cases u with
  | infinity s => exact h.elim
  | notANumber => exact h.elim
  | zero s => rfl
  | finite s m e hm => rfl

/-- A significand of 53 bits, and every one on the finest grid, is not too coarse to be rounded. -/
theorem exponent_le_grid {m : ℕ} {e : ℤ} {v : ℚ} (hle : (m : ℚ) ≤ v / 2 ^ e)
    (hlt : v / 2 ^ e < m + 1) (h : 2 ^ 52 ≤ m ∨ e ≤ -1074) : e ≤ gridExponent v := by
  rw [gridExponent]
  rcases h with h | h
  · have hm : 0 < m := (Nat.two_pow_pos 52).trans_le h
    have hlog := (Nat.le_log2 hm.ne').mpr h
    rw [log_eq hm hle hlt]
    omega
  · omega

theorem represents_round {m : ℕ} {e : ℤ} {acc : Accuracy} {v : ℚ} (hv : 0 < v)
    (hx : Holds (.ofMantissaAndAccuracy m acc) (v / 2 ^ e)) (h : 2 ^ 52 ≤ m ∨ e ≤ -1074)
    (hlarge : v < 2 ^ (1000 : ℤ)) :
    Represents (double (roundWithAccuracy Format.binary64 .positive m e acc)) (rounded v) := by
  have hm := mantissa_ofMantissaAndAccuracy m acc
  obtain ⟨hdouble, hcontent⟩ :=
    round_positive hv (exponent_le_grid (hm ▸ hx.le) (hm ▸ hx.lt) h) hx hlarge
  rw [← hcontent]
  exact represents_double hdouble

/-- The quotient of two significands, with as many bits as rounding reads. -/
theorem div_finite {m m' : ℕ} (hm : 0 < m) (hm' : 0 < m') (hlt : m < 2 ^ 53) (e e' : ℤ) :
    ∃ t q acc, div Format.binary64 (.finite .positive m e hm) (.finite .positive m' e' hm') =
        roundWithAccuracy Format.binary64 .positive q t acc ∧
      Holds (.ofMantissaAndAccuracy q acc) ((m : ℚ) * 2 ^ e / (m' * 2 ^ e') / 2 ^ t) ∧
      (2 ^ 52 ≤ q ∨ t ≤ -1074) := by
  set t := min (e - e') (max (m.log2 + 1 + e - (m'.log2 + 1 + e') - 53) (-1074)) with ht
  obtain ⟨k, hk⟩ : ∃ k : ℕ, e - e' - t = k := ⟨(e - e' - t).toNat, by omega⟩
  have hscaled : (m : ℚ) * 2 ^ e / (m' * 2 ^ e') / 2 ^ t = (m <<< k : ℕ) / m' := by
    have hexponent : e = e' + t + k := by omega
    rw [Nat.shiftLeft_eq, hexponent, zpow_add₀ two_ne_zero, zpow_add₀ two_ne_zero, zpow_natCast]
    push_cast
    field_simp
  have hdiv : ((m <<< k : ℕ) : ℚ) / m' =
      (m <<< k / m' : ℕ) + ((m <<< k % m' : ℕ) : ℚ) / m' := by
    have hsplit : ((m <<< k : ℕ) : ℚ) = m' * (m <<< k / m' : ℕ) + (m <<< k % m' : ℕ) := by
      exact_mod_cast (Nat.div_add_mod (m <<< k) m').symm
    rw [hsplit, add_div, mul_div_cancel_left₀ _ (Nat.cast_ne_zero.mpr hm'.ne')]
  refine ⟨t, m <<< k / m', accuracyOfFraction (m <<< k % m') m', ?_, ?_, ?_⟩
  · have hcore : divCore Format.binary64 m e m' e' =
        (m <<< (e - e' - t).toNat / m', t,
          accuracyOfFraction (m <<< (e - e' - t).toNat % m') m') := rfl
    rw [UnpackedFloat.div, hcore, hk, Int.toNat_natCast]
    rfl
  · rw [hscaled, hdiv]
    exact Holds.fraction _ (Nat.mod_lt _ hm')
  · have hlog := log2_lt_of_lt (by decide) hlt
    by_cases hfinest : t ≤ -1074
    · exact .inr hfinest
    · left
      rw [Nat.le_div_iff_mul_le hm', Nat.shiftLeft_eq]
      have hbits : 52 + (m'.log2 + 1) = m.log2 + k := by omega
      calc 2 ^ 52 * m' ≤ 2 ^ 52 * 2 ^ (m'.log2 + 1) :=
            Nat.mul_le_mul_left _ Nat.lt_log2_self.le
        _ = 2 ^ m.log2 * 2 ^ k := by rw [← pow_add, ← pow_add, hbits]
        _ ≤ m * 2 ^ k := Nat.mul_le_mul_right _ (Nat.log2_self_le hm.ne')

theorem div_eq (x y : Float) : x / y = double (div Format.binary64 (value x) (value y)) := rfl

namespace Represents

variable {x y : Float} {a b : ℚ}

theorem le_iff_le (hx : Represents x a) (hy : Represents y b) : x ≤ y ↔ a ≤ b := by
  rw [le_iff_content_le hx.finite hy.finite, hx.content_eq, hy.content_eq]

theorem eq_zero (h : Represents x 0) : ∃ s, value x = .zero s := by
  obtain hzero | ⟨s, m, e, hm, hvalue, -⟩ := value_spec h.finite
  · exact hzero
  · have hcontent := h.content_eq
    rw [hvalue] at hcontent
    have hpos := magnitude_pos hm e
    cases s with
    | positive => rw [content_positive] at hcontent; linarith
    | negative => rw [content_negative] at hcontent; linarith

theorem of_pos (h : Represents x a) (ha : 0 < a) :
    ∃ m e hm, value x = .finite .positive m e hm ∧ IsNormal m e ∧ a = m * 2 ^ e := by
  have hcontent := h.content_eq
  obtain ⟨s, hvalue⟩ | ⟨s, m, e, hm, hvalue, hnormal⟩ := value_spec h.finite
  · rw [hvalue, content_zero] at hcontent
    exact absurd hcontent ha.ne
  · rw [hvalue] at hcontent
    cases s with
    | positive => exact ⟨m, e, hm, hvalue, hnormal, by rw [← hcontent, content_positive]⟩
    | negative =>
      rw [content_negative] at hcontent
      have hpos := magnitude_pos hm e
      linarith

theorem zero_double (s : Sign) : Represents (double (.zero s)) 0 :=
  represents_double (u := .zero s) trivial

/-- **A product is the rounded exact product.** -/
theorem mul (hx : Represents x a) (hy : Represents y b) (ha : 0 ≤ a) (hb : 0 < b)
    (hlarge : a * b < 2 ^ (1000 : ℤ)) : Represents (x * y) (rounded (a * b)) := by
  obtain ⟨m', e', hm', hy', hnormal', rfl⟩ := hy.of_pos hb
  rw [mul_eq, hy']
  rcases ha.eq_or_lt with rfl | ha
  · obtain ⟨s, hx'⟩ := hx.eq_zero
    rw [hx', zero_mul, rounded_zero]
    exact zero_double _
  · obtain ⟨m, e, hm, hx', hnormal, rfl⟩ := hx.of_pos ha
    rw [hx']
    have hproduct : (m : ℚ) * 2 ^ e * (m' * 2 ^ e') / 2 ^ (e + e') = (m * m' : ℕ) := by
      rw [zpow_add₀ two_ne_zero, mul_mul_mul_comm, mul_div_cancel_right₀ _
        (mul_pos (two_zpow_pos e) (two_zpow_pos e')).ne', Nat.cast_mul]
    refine represents_round (mul_pos ha hb) (hproduct ▸ Holds.exact _) ?_ hlarge
    by_cases he : -1074 < e
    · exact .inl ((hnormal.two_pow_le he hm).trans (Nat.le_mul_of_pos_right m hm'))
    · by_cases he' : -1074 < e'
      · exact .inl ((hnormal'.two_pow_le he' hm').trans (Nat.le_mul_of_pos_left m' hm))
      · exact .inr (by omega)

/-- **A quotient is the rounded exact quotient.** -/
theorem div (hx : Represents x a) (hy : Represents y b) (ha : 0 ≤ a) (hb : 0 < b)
    (hlarge : a / b < 2 ^ (1000 : ℤ)) : Represents (x / y) (rounded (a / b)) := by
  obtain ⟨m', e', hm', hy', hnormal', rfl⟩ := hy.of_pos hb
  rw [div_eq, hy']
  rcases ha.eq_or_lt with rfl | ha
  · obtain ⟨s, hx'⟩ := hx.eq_zero
    rw [hx', zero_div, rounded_zero]
    exact zero_double _
  · obtain ⟨m, e, hm, hx', hnormal, rfl⟩ := hx.of_pos ha
    obtain ⟨k, q, acc, hround, hholds, hbits⟩ := div_finite hm hm' hnormal.lt e e'
    rw [hx', hround]
    exact represents_round (div_pos ha hb) hholds hbits hlarge

end Represents

/-! ## Natural numbers -/

theorem natCast_lt {n : ℕ} (h : n < 2 ^ 64) : (n : ℚ) < 2 ^ (1000 : ℤ) :=
  calc (n : ℚ) < (2 ^ 64 : ℕ) := Nat.cast_lt.mpr h
    _ = 2 ^ (64 : ℤ) := by norm_num
    _ < 2 ^ (1000 : ℤ) := zpow_lt_zpow_right₀ one_lt_two (by decide)

/-- A natural number with zeros at its end, enough of them for all bits of a double. -/
theorem represents_shifted {n k : ℕ} (hn : 0 < n) (h : n < 2 ^ 64) (hk : 2 ^ 52 ≤ n * 2 ^ k) :
    Represents (double (roundWithAccuracy Format.binary64 .positive (n * 2 ^ k) (-k) .exact))
      (rounded n) :=
  represents_round (Nat.cast_pos.mpr hn) (natCast_div_zpow n k ▸ Holds.exact _) (.inl hk)
    (natCast_lt h)

theorem represents_toFloat {n : ℕ} (hn : 0 < n) (h : n < 2 ^ 53) :
    Represents n.toUInt64.toFloat (rounded n) := by
  have hlog := log2_lt_of_lt (by decide) h
  have htoNat : n.toUInt64.toNat = n := UInt64.toNat_ofNat_of_lt' (by
    change n < 2 ^ 64
    omega)
  obtain ⟨k, hk⟩ : ∃ k : ℕ, (0 : ℤ) - max ((n.log2 : ℤ) + 1 + 0 - 53) (-1074) = k :=
    ⟨52 - n.log2, by omega⟩
  have hdecrease : decreaseExponent n 0 (max (n.log2 + 1 + 0 - 53) (-1074)) =
      (n * 2 ^ k, (-k : ℤ)) := by
    rw [decreaseExponent, hk, Int.toNat_natCast, Nat.shiftLeft_eq, zero_sub]
  have hround : UnpackedFloat.ofNat Format.binary64 n =
      roundWithAccuracy Format.binary64 .positive (n * 2 ^ k) (-k) .exact := by
    rw [UnpackedFloat.ofNat, UnpackedFloat.ofInt, UnpackedFloat.normalize,
      Int.compare_eq_gt.mpr (by omega), Int.toNat_natCast]
    change roundWithAccuracy Format.binary64 .positive
      (decreaseExponent n 0 (max (n.log2 + 1 + 0 - 53) (-1074))).1
      (decreaseExponent n 0 (max (n.log2 + 1 + 0 - 53) (-1074))).2 .exact = _
    rw [hdecrease]
  change Represents (double (UnpackedFloat.ofNat Format.binary64 n.toUInt64.toNat)) _
  rw [htoNat, hround]
  refine represents_shifted hn (by omega) ?_
  calc 2 ^ 52 = 2 ^ n.log2 * 2 ^ k := by
        rw [← pow_add]
        congr 1
        omega
    _ ≤ n * 2 ^ k := Nat.mul_le_mul_right _ (Nat.log2_self_le hn.ne')

theorem represents_ofScientific {n : ℕ} (hn : 0 < n) (h : n < 2 ^ 64) :
    Represents (double (UnpackedFloat.ofScientific Format.binary64 n 0)) (rounded n) := by
  have hlog := log2_lt_of_lt (by omega) h
  have hexponent : (2 : ℤ) ^ Format.binary64.exponentBits = 2 ^ 11 := rfl
  have hscaled : n <<< Format.binary64.mantissaBits * 10 ^ (0 : ℤ).toNat = n * 2 ^ 53 := by
    rw [Int.toNat_zero, pow_zero, mul_one, Nat.shiftLeft_eq]
    rfl
  rw [UnpackedFloat.ofScientific, dif_neg hn.ne', if_neg (by omega), if_neg (by omega),
    if_pos le_rfl, UnpackedFloat.mul, hscaled]
  exact represents_shifted hn h (by omega)

/-- **The double of a natural number is the rounded number.** -/
theorem represents_ofNat {n : ℕ} (h : n < 2 ^ 64) : Represents (Float.ofNat n) (rounded n) := by
  rcases n.eq_zero_or_pos with rfl | hn
  · rw [Nat.cast_zero, rounded_zero]
    exact Represents.zero_double .positive
  · change Represents (Float.ofScientific n false 0) _
    rw [Float.ofScientific]
    -- small numbers are converted from words, the others from their digits
    split
    · rename_i hsmall
      have hfloat := represents_toFloat hn hsmall.1
      change Represents (n.toUInt64.toFloat * 1) _
      rwa [mul_one_eq hfloat.finite]
    · exact represents_ofScientific hn h

theorem represents_natCast {n : ℕ} (h : n < 2 ^ 53) : Represents (Float.ofNat n) n := by
  have hofNat := represents_ofNat (h.trans (by decide))
  rwa [rounded_natCast h] at hofNat

theorem represents_zero : Represents 0 0 := Represents.zero_double .positive

theorem represents_hundred : Represents 100 100 := represents_natCast (n := 100) (by decide)

theorem one_le_rounded {n : ℕ} (hn : 0 < n) : 1 ≤ rounded n :=
  rounded_one.symm.trans_le (rounded_mono zero_le_one (Nat.one_le_cast.mpr hn))

/-! ## Relative errors -/

/-- The largest relative error of one rounding. -/
def roundoff : ℚ := 2 ^ (-53 : ℤ)

theorem roundoff_pos : 0 < roundoff := two_zpow_pos _

theorem roundoff_le : 1000 * roundoff ≤ 1 := by
  rw [roundoff]
  norm_num

/-- Whether `x` is off from `r` by at most `c` roundings downwards and `d` upwards. -/
structure IsWithin (c d r x : ℚ) : Prop where
  le : r * (1 - c * roundoff) ≤ x
  ge : x ≤ r * (1 + d * roundoff)

theorem isWithin_rounded {v : ℚ} (h : 2 ^ (-1022 : ℤ) ≤ v) : IsWithin 1 1 v (rounded v) := by
  have hv : 0 < v := (two_zpow_pos _).trans_le h
  have hlog : -1022 ≤ Int.log 2 v := by
    rwa [← Int.zpow_le_iff_le_log one_lt_two hv, Nat.cast_ofNat]
  obtain ⟨hlow, hhigh⟩ := abs_le.mp (abs_rounded_sub_le hv hlog)
  rw [← roundoff] at hlow hhigh
  exact ⟨by linarith, by linarith⟩

/-- One rounding more. The roundings upwards count twice, for the products of the errors. -/
theorem IsWithin.rounded {c d r x : ℚ} (h : IsWithin c d r x) (hr : 0 ≤ r) (hc : 0 ≤ c)
    (hd : d ≤ 1000) (hx : 2 ^ (-1022 : ℤ) ≤ x) : IsWithin (c + 1) (d + 2) r (rounded x) := by
  have hu := roundoff_pos
  have hu' := roundoff_le
  have hnext := isWithin_rounded hx
  constructor
  · calc r * (1 - (c + 1) * roundoff)
        ≤ r * (1 - (c + 1) * roundoff) + r * c * roundoff * roundoff :=
          le_add_of_nonneg_right (by positivity)
      _ = r * (1 - c * roundoff) * (1 - roundoff) := by ring
      _ ≤ x * (1 - roundoff) := mul_le_mul_of_nonneg_right h.le (by linarith)
      _ ≤ Doubles.rounded x := by linarith [hnext.le]
  · have hproduct : d * roundoff ≤ 1 := (mul_le_mul_of_nonneg_right hd hu.le).trans hu'
    calc Doubles.rounded x ≤ x * (1 + roundoff) := by linarith [hnext.ge]
      _ ≤ r * (1 + d * roundoff) * (1 + roundoff) :=
        mul_le_mul_of_nonneg_right h.ge (by linarith)
      _ = r * (1 + (d + 2) * roundoff) - r * roundoff * (1 - d * roundoff) := by ring
      _ ≤ r * (1 + (d + 2) * roundoff) := by
        have hslack : 0 ≤ r * roundoff * (1 - d * roundoff) :=
          mul_nonneg (by positivity) (by linarith)
        linarith

theorem IsWithin.mul_const {c d r x k : ℚ} (h : IsWithin c d r x) (hk : 0 ≤ k) :
    IsWithin c d (r * k) (x * k) := by
  constructor
  · rw [mul_right_comm]
    exact mul_le_mul_of_nonneg_right h.le hk
  · rw [mul_right_comm]
    exact mul_le_mul_of_nonneg_right h.ge hk

/-- A number that is off from one of at least two to the power of -64 is not subnormal. -/
theorem IsWithin.two_zpow_le {c d r x : ℚ} (h : IsWithin c d r x) (hc : c ≤ 500)
    (hr : 2 ^ (-64 : ℤ) ≤ r) : 2 ^ (-1022 : ℤ) ≤ x := by
  have hu := roundoff_pos
  have hu' := roundoff_le
  have hfactor : (2 : ℚ) ^ (-1 : ℤ) ≤ 1 - c * roundoff := by
    have hproduct := mul_le_mul_of_nonneg_right hc hu.le
    rw [zpow_neg_one]
    linarith
  calc (2 : ℚ) ^ (-1022 : ℤ) ≤ 2 ^ (-64 : ℤ) * 2 ^ (-1 : ℤ) := by
        rw [← zpow_add₀ two_ne_zero]
        exact zpow_le_zpow_right₀ one_le_two (by decide)
    _ ≤ r * (1 - c * roundoff) :=
      mul_le_mul hr hfactor (two_zpow_pos _).le ((two_zpow_pos _).le.trans hr)
    _ ≤ x := h.le

theorem IsWithin.div {r s x y : ℚ} (hx : IsWithin 1 1 r x) (hy : IsWithin 1 1 s y) (hr : 0 ≤ r)
    (hs : 0 < s) : IsWithin 2 3 (r / s) (x / y) := by
  have hu := roundoff_pos
  have hu' := roundoff_le
  have hratio : 0 ≤ r / s := div_nonneg hr hs.le
  have hpos : 0 < y := (mul_pos hs (by linarith)).trans_le hy.le
  have hcancel : r / s * s = r := div_mul_cancel₀ r hs.ne'
  constructor
  · rw [le_div_iff₀ hpos]
    calc r / s * (1 - 2 * roundoff) * y
        ≤ r / s * (1 - 2 * roundoff) * (s * (1 + 1 * roundoff)) :=
          mul_le_mul_of_nonneg_left hy.ge (mul_nonneg hratio (by linarith))
      _ = r / s * s * (1 - roundoff) - r / s * s * (2 * roundoff * roundoff) := by ring
      _ ≤ r * (1 - 1 * roundoff) := by
        have hslack : 0 ≤ r * (2 * roundoff * roundoff) := by positivity
        rw [hcancel]
        linarith
      _ ≤ x := hx.le
  · rw [div_le_iff₀ hpos]
    calc x ≤ r * (1 + 1 * roundoff) := hx.ge
      _ ≤ r / s * s * (1 + roundoff) + r / s * s * (roundoff * (1 - 3 * roundoff)) := by
        have hslack : 0 ≤ r * (roundoff * (1 - 3 * roundoff)) :=
          mul_nonneg hr (mul_nonneg hu.le (by linarith))
        rw [hcancel]
        linarith
      _ = r / s * (1 + 3 * roundoff) * (s * (1 - 1 * roundoff)) := by ring
      _ ≤ r / s * (1 + 3 * roundoff) * y :=
        mul_le_mul_of_nonneg_left hy.le (mul_nonneg hratio (by linarith))

/-! ## Shares -/

/-- A share of a whole in percent, with every operation rounded. -/
def roundedShare (s t : ℕ) : ℚ := rounded (rounded (rounded s / rounded t) * 100)

section Share

variable {s t : ℕ} (hst : s ≤ t) (ht : 0 < t)

include hst ht

theorem rounded_ratio_le : rounded s / rounded t ≤ 1 :=
  (div_le_one (zero_lt_one.trans_le (one_le_rounded ht))).mpr
    (rounded_mono (Nat.cast_nonneg s) (Nat.cast_le.mpr hst))

theorem rounded_quotient_le : rounded (rounded s / rounded t) ≤ 1 := by
  refine (rounded_mono ?_ (rounded_ratio_le hst ht)).trans_eq rounded_one
  exact div_nonneg (rounded_nonneg s) (rounded_nonneg t)

theorem roundedShare_le : roundedShare s t ≤ 100 := by
  have hhundred : rounded 100 = 100 := by exact_mod_cast rounded_natCast (n := 100) (by decide)
  have hle := rounded_quotient_le hst ht
  have hnonneg := rounded_nonneg (rounded s / rounded t)
  exact (rounded_mono (by linarith) (by linarith)).trans_eq hhundred

/-- The share is off by four roundings. -/
theorem abs_roundedShare_sub_le (h : t < 2 ^ 64) :
    |roundedShare s t - 100 * s / t| ≤ 100 * s / t * (8 * roundoff) := by
  rcases s.eq_zero_or_pos with rfl | hs
  · simp [roundedShare, rounded_zero]
  · have ht' : (0 : ℚ) < t := Nat.cast_pos.mpr ht
    have hratio : (2 : ℚ) ^ (-64 : ℤ) ≤ s / t := by
      rw [zpow_neg, le_div_iff₀ ht', inv_mul_le_iff₀ (two_zpow_pos 64)]
      calc (t : ℚ) ≤ 2 ^ (64 : ℤ) := by exact_mod_cast h.le
        _ ≤ 2 ^ (64 : ℤ) * s :=
          le_mul_of_one_le_right (two_zpow_pos 64).le (Nat.one_le_cast.mpr hs)
    have hratio' : (0 : ℚ) ≤ s / t := (two_zpow_pos _).le.trans hratio
    have hone : (2 : ℚ) ^ (-1022 : ℤ) ≤ 1 := zpow_le_one_of_nonpos₀ one_le_two (by decide)
    have hdouble {n : ℕ} (hn : 0 < n) : IsWithin 1 1 n (rounded n) :=
      isWithin_rounded (hone.trans (Nat.one_le_cast.mpr hn))
    have hdiv := (hdouble hs).div (hdouble ht) (Nat.cast_nonneg s) ht'
    have hquotient := hdiv.rounded hratio' (by norm_num) (by norm_num)
      (hdiv.two_zpow_le (by norm_num) hratio)
    have hproduct := hquotient.mul_const (k := 100) (by norm_num)
    have hshare := hproduct.rounded (by positivity) (by norm_num) (by norm_num)
      (hproduct.two_zpow_le (by norm_num) (by linarith))
    have hslack : 0 ≤ (s : ℚ) / t * 100 * roundoff :=
      mul_nonneg (by positivity) roundoff_pos.le
    have hcomm : (100 : ℚ) * s / t = s / t * 100 := by ring
    rw [roundedShare, hcomm, abs_le]
    constructor <;> linarith [hshare.le, hshare.ge]

theorem represents_share (h : t < 2 ^ 64) :
    Represents (Float.ofNat s / Float.ofNat t * Float.ofNat 100) (roundedShare s t) := by
  have hle := rounded_quotient_le hst ht
  have hproduct_le : rounded (rounded s / rounded t) * 100 ≤ (100 : ℕ) := by
    rw [Nat.cast_ofNat]
    linarith
  have hlarge : rounded s / rounded t ≤ (1 : ℕ) := by
    rw [Nat.cast_one]
    exact rounded_ratio_le hst ht
  have hquotient := (represents_ofNat (hst.trans_lt h)).div (represents_ofNat h)
    (rounded_nonneg s) (zero_lt_one.trans_le (one_le_rounded ht))
    (hlarge.trans_lt (natCast_lt (by decide)))
  exact hquotient.mul represents_hundred (rounded_nonneg _) (by norm_num)
    (hproduct_le.trans_lt (natCast_lt (by decide)))

/-- **A share of a whole in percent** lies between 0 and 100 and is off by at most four
roundings. -/
theorem share_spec (h : t < 2 ^ 64) :
    0 ≤ Float.ofNat s / Float.ofNat t * Float.ofNat 100 ∧
      Float.ofNat s / Float.ofNat t * Float.ofNat 100 ≤ 100 ∧
      |content (value (Float.ofNat s / Float.ofNat t * Float.ofNat 100)) - 100 * s / t| ≤
        100 * s / t * (8 * roundoff) := by
  have hshare := represents_share hst ht h
  rw [represents_zero.le_iff_le hshare, hshare.le_iff_le represents_hundred, hshare.content_eq]
  exact ⟨rounded_nonneg _, roundedShare_le hst ht, abs_roundedShare_sub_le hst ht h⟩

end Share

end GyroDelay.Doubles

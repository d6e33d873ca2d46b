import Mathlib
import GyroDelay.Bits
import GyroDelay.TimeUnit

/-!
# Finite doubles

A finite double stands for zero or for a number that rounding leaves as it is (`value_spec`,
`round_isNormal`), so multiplication with one does not change it (`mul_one_eq`). Products with
the factors of the units are finite (`isFinite_mul_factor`), as are the doubles of integers of 64
bits (`isFinite_ofInt`). A product with a positive number is undefined only if the other factor is
(`isNaN_mul`).
-/

namespace GyroDelay.Doubles

open Float.Model Float.Model.UnpackedFloat

/-! ## Packing -/

/-- Whether a number is finite and its exponent is in the range of doubles. -/
def Fits : UnpackedFloat → Prop
  | .zero _ => True
  | .finite _ _ exponent _ => exponent ≤ 971
  | _ => False

/-- The significand and the exponent of a finite double. -/
structure IsNormal (m : ℕ) (e : ℤ) : Prop where
  lt : m < 2 ^ 53
  le : e ≤ 971
  target : max (m.log2 + 1 + e - 53) (-1074) = e

theorem log2_lt_of_lt {m k : ℕ} (hk : 0 < k) (h : m < 2 ^ k) : m.log2 < k := by
  by_cases hm : m = 0
  · rw [hm]
    exact hk
  · exact (Nat.log2_lt hm).mpr h

theorem toNat_lt {e : BitVec 11} (h : e ≠ -1#_) : e.toNat + 1 < 2 ^ 11 := by
  have hlt := e.isLt
  by_contra hge
  refine h (BitVec.eq_of_toNat_eq ?_)
  simp
  omega

/-- A subnormal double. -/
theorem isNormal_mantissa (m : BitVec 52) : IsNormal m.toNat (-1074) := by
  have hlt := m.isLt
  have hlog := log2_lt_of_lt (by omega) hlt
  exact ⟨by omega, by omega, by omega⟩

/-- A double with its implicit bit. -/
theorem isNormal_implicit {e : BitVec 11} (m : BitVec 52) (h : e ≠ -1#_) (h0 : e ≠ 0#_) :
    IsNormal (1#1 ++ m).toNat (e.toNat - 1075) := by
  have hlt := m.isLt
  have he := toNat_lt h
  have hpos : e.toNat ≠ 0 := fun heq => h0 (BitVec.eq_of_toNat_eq heq)
  have hvalue : (1#1 ++ m).toNat = 2 ^ 52 + m.toNat := by
    rw [BitVec.toNat_append, ← Nat.shiftLeft_add_eq_or_of_lt hlt]
    rfl
  have hlog : (1#1 ++ m).toNat.log2 = 52 := by
    rw [hvalue]
    exact (Nat.log2_eq_iff (by omega)).mpr ⟨by omega, by omega⟩
  exact ⟨by omega, by omega, by omega⟩

theorem isNormal_of_unpack {b : BitVec 64} {s : Sign} {m : ℕ} {e : ℤ} {hm : 0 < m}
    (h : UnpackedFloat.unpack Format.binary64 b = .finite s m e hm) : IsNormal m e := by
  unfold UnpackedFloat.unpack at h
  dsimp only at h
  split at h
  · split at h
    · cases h
    · cases h
  · rename_i hinf
    split at h
    · rename_i hexp
      split at h
      · cases h
      · rw [hexp] at h
        cases h
        exact isNormal_mantissa _
    · rename_i hexp
      cases h
      exact isNormal_implicit _ hinf hexp

/-! ## Rounding -/

theorem mantissa_shiftRight (em : ExtendedMantissa) (k : ℕ) :
    (em >>> k).mantissa = em.mantissa / 2 ^ k := by
  change (k.repeat ExtendedMantissa.shiftRightOne em).mantissa = _
  induction k with
  | zero => exact (Nat.div_one _).symm
  | succ k ih =>
    change (k.repeat ExtendedMantissa.shiftRightOne em).mantissa / 2 = _
    rw [ih, Nat.div_div_eq_div_mul, pow_succ]

theorem shiftRight_exact (m k : ℕ) :
    (⟨m * 2 ^ k, false, false⟩ : ExtendedMantissa) >>> k = ⟨m, false, false⟩ := by
  change k.repeat ExtendedMantissa.shiftRightOne _ = _
  induction k generalizing m with
  | zero => rw [pow_zero, mul_one]; rfl
  | succ k ih =>
    have hsplit : m * 2 ^ (k + 1) = m * 2 * 2 ^ k := by ring
    rw [hsplit, Nat.repeat, ih (m * 2)]
    simp [ExtendedMantissa.shiftRightOne]

theorem roundedMantissa_le (em : ExtendedMantissa) : em.roundedMantissa ≤ em.mantissa + 1 := by
  obtain ⟨m, _ | _, _ | _⟩ := em
  · exact Nat.le_succ m
  · exact Nat.le_succ m
  · change m + m % 2 ≤ m + 1
    omega
  · exact le_rfl

/-- Rounding after a shift may gain one bit. -/
theorem log2_rounded_le (m k : ℕ) :
    ((⟨m, false, false⟩ : ExtendedMantissa) >>> k).roundedMantissa.log2 ≤ m.log2 + 1 - k := by
  have hlt : m < 2 ^ k * 2 ^ (m.log2 + 1 - k) := by
    rw [← pow_add]
    exact Nat.lt_log2_self.trans_le (Nat.pow_le_pow_right two_pos (by omega))
  have hquotient := Nat.div_lt_of_lt_mul hlt
  have hrounded := roundedMantissa_le ((⟨m, false, false⟩ : ExtendedMantissa) >>> k)
  rw [mantissa_shiftRight] at hrounded
  refine Nat.lt_succ_iff.mp (log2_lt_of_lt (Nat.succ_pos _) ?_)
  calc _ ≤ 2 ^ (m.log2 + 1 - k) := hrounded.trans hquotient
    _ < 2 ^ (m.log2 + 1 - k + 1) := Nat.pow_lt_pow_right one_lt_two (Nat.lt_succ_self _)

theorem shiftToTargetExponent_exact (m : ℕ) (e : ℤ) :
    shiftToTargetExponent Format.binary64 m e .exact =
      ((⟨m, false, false⟩ : ExtendedMantissa) >>> (max (m.log2 + 1 + e - 53) (-1074) - e).toNat,
        e + (max (m.log2 + 1 + e - 53) (-1074) - e).toNat) := rfl

theorem fits_round (s : Sign) {m : ℕ} {e : ℤ} (hm : m.log2 + 1 + e ≤ 1023) (he : e ≤ 971) :
    Fits (roundWithAccuracy Format.binary64 s m e .exact) := by
  rw [roundWithAccuracy, shiftToTargetExponent_exact]
  dsimp only
  set k := (max (m.log2 + 1 + e - 53) (-1074) - e).toNat with hk
  have hlog := log2_rounded_le m k
  rw [shiftToTargetExponent_exact]
  dsimp only
  split
  · trivial
  · rw [Fits]
    omega

theorem log2_mul_two_pow {m : ℕ} (hm : 0 < m) (k : ℕ) : (m * 2 ^ k).log2 = m.log2 + k := by
  refine (Nat.log2_eq_iff (Nat.mul_pos hm (Nat.two_pow_pos k)).ne').mpr ⟨?_, ?_⟩
  · rw [pow_add]
    exact Nat.mul_le_mul_right _ (Nat.log2_self_le hm.ne')
  · rw [add_right_comm, pow_add]
    exact Nat.mul_lt_mul_of_pos_right Nat.lt_log2_self (Nat.two_pow_pos k)

theorem shift_isNormal {m : ℕ} {e : ℤ} (hm : 0 < m) (h : IsNormal m e) (k : ℕ) :
    shiftToTargetExponent Format.binary64 (m * 2 ^ k) (e - k) .exact =
      (⟨m, false, false⟩, e) := by
  have htarget : max (((m.log2 + k : ℕ) : ℤ) + 1 + (e - k) - 53) (-1074) = e := by
    have := h.target
    omega
  rw [shiftToTargetExponent_exact, log2_mul_two_pow hm, htarget, sub_sub_cancel, Int.toNat_natCast,
    shiftRight_exact, sub_add_cancel]

/-- A finite double is its own rounding, however many zeros follow its significand. -/
theorem round_isNormal (s : Sign) {m : ℕ} {e : ℤ} (hm : 0 < m) (h : IsNormal m e) (k : ℕ) :
    roundWithAccuracy Format.binary64 s (m * 2 ^ k) (e - k) .exact = .finite s m e hm := by
  have hround : (⟨m, false, false⟩ : ExtendedMantissa).roundedMantissa = m := rfl
  have hagain := shift_isNormal hm h 0
  rw [pow_zero, mul_one, Nat.cast_zero, sub_zero] at hagain
  rw [roundWithAccuracy, shift_isNormal hm h k]
  dsimp only
  rw [hround, hagain]
  exact dif_neg hm.ne'

/-! ## Doubles -/

/-- What a double stands for. -/
def value (x : Float) : UnpackedFloat :=
  UnpackedFloat.unpack Format.binary64 x.toModel.toBits.toBitVec

/-- The double that holds a number. -/
def double (u : UnpackedFloat) : Float := Float.ofModel (Float.Model.pack u)

theorem mul_eq (x y : Float) : x * y = double (mul Format.binary64 (value x) (value y)) := rfl

theorem neg_eq (x : Float) : -x = double (value x).neg := rfl

theorem isFinite_eq (x : Float) : x.isFinite = (value x).isFinite := rfl

theorem le_iff (x y : Float) : x ≤ y ↔ (value x).le (value y) = true := by
  change decide ((value x).le (value y) = true) = true ↔ _
  exact decide_eq_true_iff

theorem value_zero : value 0 = .zero .positive := rfl

theorem value_neg_zero : value (-0) = .zero .negative := rfl

theorem zero_le_iff (x : Float) : 0 ≤ x ↔ -0 ≤ x := by
  rw [le_iff, le_iff, value_zero, value_neg_zero]
  cases value x with
  | infinity s => cases s <;> rfl
  | notANumber => rfl
  | zero s => rfl
  | finite s => cases s <;> rfl

theorem le_zero_iff (x : Float) : x ≤ 0 ↔ x ≤ -0 := by
  rw [le_iff, le_iff, value_zero, value_neg_zero]
  cases value x with
  | infinity s => cases s <;> rfl
  | notANumber => rfl
  | zero s => rfl
  | finite s => cases s <;> rfl

theorem double_value (x : Float) : double (value x) = x := Float.ofBits_toBits x

theorem isFinite_unpack {b : BitVec 64} (h : @unpackExponent Format.binary64 b ≠ -1#_) :
    (UnpackedFloat.unpack Format.binary64 b).isFinite = true := by
  unfold UnpackedFloat.unpack
  dsimp only
  rw [if_neg h]
  split
  · split <;> rfl
  · rfl

theorem isFinite_double {u : UnpackedFloat} (h : Fits u) : (double u).isFinite = true := by
  have hcomponents : ∀ s e m, e ≠ -1#11 →
      (UnpackedFloat.unpack Format.binary64 (packComponents Format.binary64 s e m)).isFinite :=
    fun s e m he => isFinite_unpack (by rwa [unpackExponent_packComponents])
  change (UnpackedFloat.unpack Format.binary64 (UnpackedFloat.pack Format.binary64 u)).isFinite = _
  cases u with
  | infinity s => exact h.elim
  | notANumber => exact h.elim
  | zero s => exact hcomponents s 0#11 0#52 (by decide)
  | finite s m e hm =>
    have he : e ≤ 971 := h
    change (UnpackedFloat.unpack Format.binary64 (if 2 ^ 11 ≤ (e + 1023 + 52).toNat + 1 then
      packedInfinity Format.binary64 s
      else if m.log2 + 1 = 53 then packComponents Format.binary64 s
        (BitVec.ofNat 11 (e + 1023 + 52).toNat) (BitVec.ofNat 52 m)
      else packComponents Format.binary64 s 0#11 (BitVec.ofNat 52 m))).isFinite = _
    rw [if_neg (by omega)]
    split
    · refine hcomponents s _ _ fun heq => ?_
      have hfield : (e + 1023 + 52).toNat % 2 ^ 11 = 2047 :=
        (BitVec.toNat_ofNat _ _).symm.trans (congrArg BitVec.toNat heq)
      omega
    · exact hcomponents s _ _ (by decide)

/-- What a finite double stands for. -/
theorem value_spec {x : Float} (h : x.isFinite = true) :
    (∃ s, value x = .zero s) ∨ ∃ s m e hm, value x = .finite s m e hm ∧ IsNormal m e := by
  rw [isFinite_eq] at h
  cases hvalue : value x with
  | infinity s =>
    rw [hvalue] at h
    contradiction
  | notANumber =>
    rw [hvalue] at h
    contradiction
  | zero s => exact .inl ⟨s, rfl⟩
  | finite s m e hm => exact .inr ⟨s, m, e, hm, rfl, isNormal_of_unpack hvalue⟩

theorem not_special {x : Float} (h : x.isFinite = true) : x.isNaN = false ∧ x.isInf = false := by
  change (value x).isNaN = false ∧ (value x).isInf = false
  obtain ⟨s, hvalue⟩ | ⟨s, m, e, hm, hvalue, -⟩ := value_spec h
  · rw [hvalue]
    exact ⟨rfl, rfl⟩
  · rw [hvalue]
    exact ⟨rfl, rfl⟩

theorem isFinite_neg {x : Float} (h : x.isFinite = true) : (-x).isFinite = true := by
  rw [neg_eq]
  obtain ⟨s, hvalue⟩ | ⟨s, m, e, hm, hvalue, hnormal⟩ := value_spec h
  · rw [hvalue]
    exact isFinite_double trivial
  · rw [hvalue]
    exact isFinite_double (show e ≤ 971 from hnormal.le)

theorem value_one : value 1 = .finite .positive (2 ^ 52) (-52) (Nat.two_pow_pos 52) := rfl

theorem mul_positive (s : Sign) : s * .positive = s := by cases s <;> rfl

/-- Multiplication by one changes no finite double, the sign of a zero included. -/
theorem mul_one_eq {x : Float} (h : x.isFinite = true) : x * 1 = x := by
  have hsame : mul Format.binary64 (value x) (value 1) = value x := by
    rw [value_one]
    obtain ⟨s, hvalue⟩ | ⟨s, m, e, hm, hvalue, hnormal⟩ := value_spec h
    · rw [hvalue]
      exact congrArg _ (mul_positive s)
    · rw [hvalue]
      change roundWithAccuracy Format.binary64 (s * .positive) (m * 2 ^ 52)
        (e - (52 : ℕ)) .exact = _
      rw [mul_positive, round_isNormal s hm hnormal 52]
  rw [mul_eq, hsame, double_value]

/-- A double less than one. -/
theorem isFinite_mul {x y : Float} (h : x.isFinite = true) {m' : ℕ} {e' : ℤ} {hm' : 0 < m'}
    (hy : value y = .finite .positive m' e' hm') (hlt : m' < 2 ^ 53) (he' : e' ≤ -54) :
    (x * y).isFinite = true := by
  rw [mul_eq, hy]
  obtain ⟨s, hvalue⟩ | ⟨s, m, e, hm, hvalue, hnormal⟩ := value_spec h
  · rw [hvalue]
    exact isFinite_double trivial
  · rw [hvalue]
    have hprod : m * m' < 2 ^ 106 := by
      calc m * m' < 2 ^ 53 * 2 ^ 53 := Nat.mul_lt_mul'' hnormal.lt hlt
        _ = 2 ^ 106 := rfl
    have hlog := log2_lt_of_lt (by omega) hprod
    have he := hnormal.le
    change (double (roundWithAccuracy Format.binary64 (s * .positive) (m * m')
      (e + e') .exact)).isFinite = true
    exact isFinite_double (fits_round _ (by omega) (by omega))

theorem isNaN_eq (x : Float) : x.isNaN = (value x).isNaN := rfl

/-- A number that is too large becomes infinite and stays a number. -/
theorem isNaN_double {u : UnpackedFloat} (h : u.isNaN = false) : (double u).isNaN = false := by
  by_cases hfits : Fits u
  · exact (not_special (isFinite_double hfits)).1
  · change (UnpackedFloat.unpack Format.binary64 (UnpackedFloat.pack Format.binary64 u)).isNaN = _
    cases u with
    | infinity s => cases s <;> rfl
    | notANumber => contradiction
    | zero s => exact (hfits trivial).elim
    | finite s m e hm =>
      have he : ¬ e ≤ 971 := hfits
      change (UnpackedFloat.unpack Format.binary64 (if 2 ^ 11 ≤ (e + 1023 + 52).toNat + 1 then
        packedInfinity Format.binary64 s
        else if m.log2 + 1 = 53 then packComponents Format.binary64 s
          (BitVec.ofNat 11 (e + 1023 + 52).toNat) (BitVec.ofNat 52 m)
        else packComponents Format.binary64 s 0#11 (BitVec.ofNat 52 m))).isNaN = _
      rw [if_pos (by omega)]
      cases s <;> rfl

theorem isNaN_round (s : Sign) (m : ℕ) (e : ℤ) :
    (roundWithAccuracy Format.binary64 s m e .exact).isNaN = false := by
  unfold roundWithAccuracy
  dsimp only
  split <;> rfl

/-- A product with a positive number is not a number exactly if the other factor is none. -/
theorem isNaN_mul {x y : Float} {m' : ℕ} {e' : ℤ} {hm' : 0 < m'}
    (hy : value y = .finite .positive m' e' hm') : (x * y).isNaN = x.isNaN := by
  rw [mul_eq, hy, isNaN_eq x]
  cases hvalue : value x with
  | notANumber =>
    rw [UnpackedFloat.mul]
    decide
  | infinity s => exact isNaN_double rfl
  | zero s => exact isNaN_double rfl
  | finite s m e hm => exact isNaN_double (isNaN_round _ _ _)

/-- Timestamps stay finite in seconds. -/
theorem isFinite_mul_factor {x : Float} (h : x.isFinite = true) (unit : TimeUnit) :
    (x * unit.factor).isFinite = true := by
  cases unit with
  | nanoseconds =>
    have hvalue : value (TimeUnit.nanoseconds.factor : Float) =
        .finite .positive 4835703278458517 (-82) (by decide) := rfl
    exact isFinite_mul h hvalue (by decide) (by decide)
  | microseconds =>
    have hvalue : value (TimeUnit.microseconds.factor : Float) =
        .finite .positive 4722366482869645 (-72) (by decide) := rfl
    exact isFinite_mul h hvalue (by decide) (by decide)
  | milliseconds =>
    have hvalue : value (TimeUnit.milliseconds.factor : Float) =
        .finite .positive 4611686018427388 (-62) (by decide) := rfl
    exact isFinite_mul h hvalue (by decide) (by decide)
  | seconds =>
    have hfactor : (TimeUnit.seconds.factor : Float) = 1 := rfl
    rwa [hfactor, mul_one_eq h]

/-- A natural number of 64 bits is rounded to a finite double. -/
theorem fits_ofNat {n : ℕ} (h : n < 2 ^ 64) : Fits (UnpackedFloat.ofNat Format.binary64 n) := by
  rw [UnpackedFloat.ofNat, UnpackedFloat.ofInt, UnpackedFloat.normalize]
  rcases Nat.eq_zero_or_pos n with rfl | hn
  · trivial
  · rw [Int.compare_eq_gt.mpr (by omega), Int.toNat_natCast]
    have hlog := log2_lt_of_lt (by omega) h
    rw [UnpackedFloat.round, decreaseExponent]
    refine fits_round _ ?_ (by omega)
    rw [Nat.shiftLeft_eq, log2_mul_two_pow hn]
    omega

theorem fits_ofScientific {n : ℕ} (hn : 0 < n) (h : n < 2 ^ 64) :
    Fits (UnpackedFloat.ofScientific Format.binary64 n 0) := by
  have hlog := log2_lt_of_lt (by omega) h
  have hbits : Format.binary64.mantissaBits = 53 := rfl
  have hexponent : (2 : ℤ) ^ Format.binary64.exponentBits = 2 ^ 11 := rfl
  rw [UnpackedFloat.ofScientific, dif_neg hn.ne', if_neg (by omega), if_neg (by omega),
    if_pos le_rfl, UnpackedFloat.mul]
  have hscaled : (n <<< 53 * 10 ^ (0 : ℤ).toNat).log2 = n.log2 + 53 := by
    rw [Int.toNat_zero, pow_zero, mul_one, Nat.shiftLeft_eq, log2_mul_two_pow hn]
  refine fits_round _ ?_ ?_
  · rw [hbits, hscaled]
    omega
  · omega

theorem isFinite_ofNat {n : ℕ} (h : n < 2 ^ 64) : (Float.ofNat n).isFinite = true := by
  change (Float.ofScientific n false 0).isFinite = true
  rw [Float.ofScientific]
  split
  · have hfinite : n.toUInt64.toFloat.isFinite = true :=
      isFinite_double (fits_ofNat n.toUInt64.toNat_lt)
    change (n.toUInt64.toFloat * 1).isFinite = true
    rwa [mul_one_eq hfinite]
  · rename_i hlarge
    have hn : 0 < n := Nat.pos_of_ne_zero fun heq => hlarge (by rw [heq]; decide)
    exact isFinite_double (fits_ofScientific hn h)

theorem isFinite_ofInt {i : ℤ} (h : isSigned 64 i = true) : (Float.ofInt i).isFinite = true := by
  rw [isSigned, Bool.and_eq_true, decide_eq_true_eq, decide_eq_true_eq] at h
  change -2 ^ 63 ≤ i ∧ i < 2 ^ 63 at h
  cases i with
  | ofNat n =>
    have hn : (n : ℤ) < 2 ^ 63 := h.2
    exact isFinite_ofNat (by omega)
  | negSucc n =>
    rw [Int.negSucc_eq] at h
    exact isFinite_neg (isFinite_ofNat (by omega))

end GyroDelay.Doubles

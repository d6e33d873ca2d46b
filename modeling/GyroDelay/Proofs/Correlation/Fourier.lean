import Mathlib.RingTheory.RootsOfUnity.Complex
import GyroDelay.Correlation.Transform
import GyroDelay.Proofs.Matrix

/-!
# The transform is the discrete Fourier transform

The recursion on even and odd places computes, in exact arithmetic, the sums that define
the discrete Fourier transform (`forward_eq_dft`, `backward_eq_dft`).

The recursion is followed for any root `ζ` and any table of its powers: one level of
`level` joins two transforms of half the length, since `ζ` to half the length is `-1`
(`dft_even_odd`, `dft_even_odd_add`). `sum_pow_mul_inv_pow` is the orthogonality of the
powers of a primitive root, from which the inverse transform follows.
-/

namespace GyroDelay

open Finset

namespace Rect

/-- The complex number with the given parts. -/
def toComplex (u : Rect ℝ) : ℂ := ⟨u.re, u.im⟩

theorem toComplex_add (u v : Rect ℝ) : (u.add v).toComplex = u.toComplex + v.toComplex := rfl

theorem toComplex_sub (u v : Rect ℝ) : (u.sub v).toComplex = u.toComplex - v.toComplex := rfl

theorem toComplex_mul (u v : Rect ℝ) : (u.mul v).toComplex = u.toComplex * v.toComplex := rfl

theorem toComplex_conj (u : Rect ℝ) : u.conj.toComplex = starRingEnd ℂ u.toComplex := rfl

end Rect

namespace Transform

/-! ## Entries of arrays -/

/-- The entry of an array at a place, zero outside of it. -/
noncomputable def entry (x : Array (Rect ℝ)) (j : ℕ) : ℂ := (x.getD j Rect.zero).toComplex

theorem entry_of_lt {x : Array (Rect ℝ)} {j : ℕ} (h : j < x.size) :
    entry x j = x[j].toComplex := by
  simp [entry, Array.getD, h]

theorem entry_append_left {x y : Array (Rect ℝ)} {j : ℕ} (h : j < x.size) :
    entry (x ++ y) j = entry x j := by
  rw [entry_of_lt h, entry_of_lt (by rw [Array.size_append]; omega),
    Array.getElem_append_left h]

theorem entry_append_right {x y : Array (Rect ℝ)} {j : ℕ} (h : j < y.size) :
    entry (x ++ y) (x.size + j) = entry y j := by
  rw [entry_of_lt h, entry_of_lt (by rw [Array.size_append]; omega),
    Array.getElem_append_right (by omega)]
  simp only [Nat.add_sub_cancel_left]

theorem entry_zipWith {f : Rect ℝ → Rect ℝ → Rect ℝ} {g : ℂ → ℂ → ℂ}
    (hf : ∀ u v, (f u v).toComplex = g u.toComplex v.toComplex)
    {x y : Array (Rect ℝ)} {j : ℕ} (hx : j < x.size) (hy : j < y.size) :
    entry (Array.zipWith f x y) j = g (entry x j) (entry y j) := by
  rw [entry_of_lt hx, entry_of_lt hy, entry_of_lt (by rw [Array.size_zipWith]; omega),
    Array.getElem_zipWith, hf]

/-- The entries at odd places, each times its power of the root. -/
theorem entry_turned (roots x : Array (Rect ℝ)) (stride : ℕ) {j : ℕ} (h : j < x.size) :
    entry (x.mapIdx fun i v => (roots.getD (i * stride) Rect.zero).mul v) j =
      entry roots (j * stride) * entry x j := by
  rw [entry_of_lt (by rwa [Array.size_mapIdx]), Array.getElem_mapIdx, Rect.toComplex_mul,
    entry_of_lt h]
  rfl

/-! ## One level of the recursion -/

/-- The sum of all `x m` times the power `j * m` of `ζ`. -/
noncomputable def dft (ζ : ℂ) (n : ℕ) (x : ℕ → ℂ) (j : ℕ) : ℂ := ∑ m ∈ range n, ζ ^ (j * m) * x m

theorem sum_range_even_odd (f : ℕ → ℂ) (n : ℕ) :
    ∑ m ∈ range (2 * n), f m = ∑ m ∈ range n, f (2 * m) + ∑ m ∈ range n, f (2 * m + 1) := by
  induction n with
  | zero => simp
  | succ n ih =>
    rw [Nat.mul_succ, sum_range_succ, sum_range_succ, ih, sum_range_succ, sum_range_succ]
    ring

/-- The first half of a transform, from those of the even and of the odd places. -/
theorem dft_even_odd (ζ : ℂ) (n : ℕ) (x : ℕ → ℂ) (j : ℕ) :
    dft ζ (2 * n) x j =
      dft (ζ ^ 2) n (fun m => x (2 * m)) j
        + ζ ^ j * dft (ζ ^ 2) n (fun m => x (2 * m + 1)) j := by
  unfold dft
  rw [sum_range_even_odd, mul_sum]
  congr 1
  · apply sum_congr rfl
    intro m _
    rw [← pow_mul]
    ring_nf
  · apply sum_congr rfl
    intro m _
    rw [← pow_mul, ← mul_assoc, ← pow_add]
    ring_nf

/-- The second half differs in the sign of the odd places. -/
theorem dft_even_odd_add {ζ : ℂ} {n : ℕ} (hζ : ζ ^ n = -1) (x : ℕ → ℂ) (j : ℕ) :
    dft ζ (2 * n) x (n + j) =
      dft (ζ ^ 2) n (fun m => x (2 * m)) j
        - ζ ^ j * dft (ζ ^ 2) n (fun m => x (2 * m + 1)) j := by
  have hsquare : (ζ ^ 2) ^ n = 1 := by
    rw [← pow_mul, mul_comm, pow_mul, hζ]
    norm_num
  have hperiod (y : ℕ → ℂ) : dft (ζ ^ 2) n y (n + j) = dft (ζ ^ 2) n y j := by
    apply sum_congr rfl
    intro m _
    rw [add_mul, pow_add, pow_mul, hsquare, one_pow, one_mul]
  rw [dft_even_odd, hperiod, hperiod, pow_add, hζ]
  ring

/-! ## The recursion -/

/-- The powers of `ζ` below half of `n`, in order. -/
def IsTable (ζ : ℂ) (n : ℕ) (roots : Array (Rect ℝ)) : Prop :=
  ∀ j, j < n / 2 → entry roots j = ζ ^ j

theorem size_level {α : Type} [Scalar α] (roots x : Array (Rect α)) (k offset stride : ℕ) :
    (level roots x k offset stride).size = 2 ^ k := by
  induction k generalizing offset stride with
  | zero => rfl
  | succ k ih =>
    rw [level]
    simp only [Array.size_append, Array.size_zipWith, Array.size_mapIdx, ih]
    rw [Nat.pow_succ]
    omega

/-- A level joins the transforms of the even and of the odd places. -/
theorem entry_level_succ (roots x : Array (Rect ℝ)) (k offset stride : ℕ) {j : ℕ}
    (hj : j < 2 ^ k) :
    entry (level roots x (k + 1) offset stride) j =
        entry (level roots x k offset (2 * stride)) j +
          entry roots (j * stride) * entry (level roots x k (offset + stride) (2 * stride)) j ∧
      entry (level roots x (k + 1) offset stride) (2 ^ k + j) =
        entry (level roots x k offset (2 * stride)) j -
          entry roots (j * stride) * entry (level roots x k (offset + stride) (2 * stride)) j := by
  have heven := size_level roots x k offset (2 * stride)
  have hodd := size_level roots x k (offset + stride) (2 * stride)
  rw [level]
  generalize level roots x k offset (2 * stride) = even at heven ⊢
  generalize level roots x k (offset + stride) (2 * stride) = odd at hodd ⊢
  have hturned := entry_turned roots odd stride (hodd ▸ hj)
  generalize hy : (odd.mapIdx fun j v => (roots.getD (j * stride) Rect.zero).mul v) = turned
    at hturned ⊢
  have hsize : turned.size = 2 ^ k := by rw [← hy, Array.size_mapIdx, hodd]
  have hplus : (Array.zipWith Rect.add even turned).size = 2 ^ k := by
    rw [Array.size_zipWith]
    omega
  have hminus : (Array.zipWith Rect.sub even turned).size = 2 ^ k := by
    rw [Array.size_zipWith]
    omega
  constructor
  · rw [entry_append_left (by omega), entry_zipWith Rect.toComplex_add (by omega) (by omega),
      hturned]
  · rw [← hplus, entry_append_right (by omega),
      entry_zipWith Rect.toComplex_sub (by omega) (by omega), hturned]

/-- A level transforms the entries at `offset`, `offset + stride`, …, with the power
`stride` of the root of the table. -/
theorem entry_level {ζ : ℂ} {n : ℕ} {roots : Array (Rect ℝ)} (htable : IsTable ζ n roots)
    (h0 : 0 < n) (hζ : 2 ≤ n → ζ ^ (n / 2) = -1) (x : Array (Rect ℝ)) {k stride : ℕ} (offset : ℕ)
    (hn : 2 ^ k * stride = n) {j : ℕ} (hj : j < 2 ^ k) :
    entry (level roots x k offset stride) j =
      dft (ζ ^ stride) (2 ^ k) (fun m => entry x (offset + m * stride)) j := by
  induction k generalizing offset stride j with
  | zero =>
    obtain rfl : j = 0 := by simpa using hj
    have h : level roots x 0 offset stride = #[x.getD offset Rect.zero] := rfl
    rw [h, entry_of_lt (by simp)]
    simp [dft, entry]
  | succ k ih =>
    have hn' : 2 ^ k * (2 * stride) = n := by rw [← hn, Nat.pow_succ]; ring
    have hhalf : 2 ^ k * stride = n / 2 := by
      rw [← hn', Nat.mul_left_comm, Nat.mul_div_cancel_left _ (by omega)]
    have hs : 0 < stride := Nat.pos_of_mul_pos_left (hn ▸ h0)
    -- the transforms of the even and of the odd places, and the powers that turn them
    have heven (i : ℕ) (hi : i < 2 ^ k) :
        entry (level roots x k offset (2 * stride)) i = dft ((ζ ^ stride) ^ 2) (2 ^ k)
          (fun m => entry x (offset + 2 * m * stride)) i := by
      rw [ih _ hn' hi, ← pow_mul, Nat.mul_comm stride]
      simp only [Nat.mul_left_comm, Nat.mul_assoc]
    have hodd (i : ℕ) (hi : i < 2 ^ k) :
        entry (level roots x k (offset + stride) (2 * stride)) i = dft ((ζ ^ stride) ^ 2) (2 ^ k)
          (fun m => entry x (offset + (2 * m + 1) * stride)) i := by
      have hplace (m : ℕ) : offset + stride + m * (2 * stride) = offset + (2 * m + 1) * stride := by
        ring
      rw [ih _ hn' hi, ← pow_mul, Nat.mul_comm stride]
      simp only [hplace]
    have hroot (i : ℕ) (hi : i < 2 ^ k) : entry roots (i * stride) = (ζ ^ stride) ^ i := by
      rw [htable _ (hhalf ▸ Nat.mul_lt_mul_of_pos_right hi hs), ← pow_mul, Nat.mul_comm]
    have hpow : 2 ^ (k + 1) = 2 * 2 ^ k := by rw [Nat.pow_succ, Nat.mul_comm]
    have hturn : (ζ ^ stride) ^ 2 ^ k = -1 := by
      rw [← pow_mul, Nat.mul_comm, hhalf]
      apply hζ
      rw [← hn']
      exact Nat.le_trans (Nat.le_mul_of_pos_right 2 hs)
        (Nat.le_mul_of_pos_left _ (Nat.two_pow_pos k))
    rcases lt_or_ge j (2 ^ k) with hlt | hge
    · rw [(entry_level_succ roots x k offset stride hlt).1, heven j hlt, hodd j hlt, hroot j hlt,
        hpow, dft_even_odd]
    · obtain ⟨i, rfl⟩ : ∃ i, j = 2 ^ k + i := ⟨j - 2 ^ k, by omega⟩
      have hi : i < 2 ^ k := by omega
      rw [(entry_level_succ roots x k offset stride hi).2, heven i hi, hodd i hi, hroot i hi,
        hpow, dft_even_odd_add hturn]

/-! ## The roots of unity -/

/-- The first counterclockwise root of unity for `n` entries. -/
noncomputable def unityRoot (n : ℕ) : ℂ := Complex.exp (fullTurn * Complex.I / n)

theorem unityRoot_eq (n : ℕ) : unityRoot n = Complex.exp (2 * Real.pi * Complex.I / n) := by
  rw [unityRoot, fullTurn, Complex.ofReal_mul, Complex.ofReal_ofNat]

theorem isPrimitiveRoot_unityRoot {n : ℕ} (h : n ≠ 0) : IsPrimitiveRoot (unityRoot n) n := by
  rw [unityRoot_eq]
  exact Complex.isPrimitiveRoot_exp n h

theorem unityRoot_pow (n j : ℕ) :
    unityRoot n ^ j = Complex.exp ((2 * Real.pi * j / n : ℝ) * Complex.I) := by
  rw [unityRoot_eq, ← Complex.exp_nat_mul]
  congr 1
  push_cast
  ring

theorem conj_unityRoot (n : ℕ) : starRingEnd ℂ (unityRoot n) = (unityRoot n)⁻¹ := by
  rw [unityRoot_eq, ← Complex.exp_conj, ← Complex.exp_neg]
  congr 1
  simp only [map_div₀, map_mul, Complex.conj_I, Complex.conj_ofReal, map_ofNat, map_natCast]
  ring

theorem unityRoot_pow_half {n : ℕ} (h : 2 ≤ n) (heven : 2 ∣ n) : unityRoot n ^ (n / 2) = -1 := by
  obtain ⟨m, rfl⟩ := heven
  have hm : (m : ℝ) ≠ 0 := by
    norm_cast
    omega
  have hangle : 2 * Real.pi * m / (2 * m : ℕ) = Real.pi := by
    push_cast
    field_simp
  rw [Nat.mul_div_cancel_left _ (by omega), unityRoot_pow, hangle, Complex.exp_pi_mul_I]

theorem size_clockwiseRoots (n : ℕ) : (clockwiseRoots n : Array (Rect ℝ)).size = n / 2 := by
  simp [clockwiseRoots]

theorem conj_entry_clockwiseRoots {n j : ℕ} (h : j < n / 2) :
    starRingEnd ℂ (entry (clockwiseRoots n) j) = unityRoot n ^ j := by
  have hentry : entry (clockwiseRoots n) j =
      ⟨Real.cos (2 * Real.pi * j / n), -Real.sin (2 * Real.pi * j / n)⟩ := by
    rw [entry_of_lt (by rwa [size_clockwiseRoots])]
    simp only [clockwiseRoots, Array.getElem_map, Array.getElem_range, Scalar.turn_real]
    rfl
  rw [hentry, unityRoot_pow]
  apply Complex.ext
  · rw [Complex.conj_re, Complex.exp_ofReal_mul_I_re]
  · rw [Complex.conj_im, Complex.exp_ofReal_mul_I_im, neg_neg]

theorem isTable_clockwiseRoots (n : ℕ) : IsTable (unityRoot n)⁻¹ n (clockwiseRoots n) := by
  intro j h
  rw [← Complex.conj_conj (entry _ j), conj_entry_clockwiseRoots h, map_pow, conj_unityRoot]

theorem isTable_conj_clockwiseRoots (n : ℕ) :
    IsTable (unityRoot n) n ((clockwiseRoots n).map Rect.conj) := by
  intro j h
  have hj : j < (clockwiseRoots n : Array (Rect ℝ)).size := by rwa [size_clockwiseRoots]
  rw [← conj_entry_clockwiseRoots h, entry_of_lt (by rwa [Array.size_map]), entry_of_lt hj,
    Array.getElem_map, Rect.toComplex_conj]

/-! ## Both transforms -/

section Sizes

variable {α : Type} [Scalar α] (k : ℕ) (x : Array (Rect α))

theorem size_forward : (forward k x).size = 2 ^ k := size_level _ x k 0 1

theorem size_backward : (backward k x).size = 2 ^ k := size_level _ x k 0 1

end Sizes

/-- The transform is the discrete Fourier transform. -/
theorem forward_eq_dft (x : Array (Rect ℝ)) {k j : ℕ} (hj : j < 2 ^ k) :
    entry (forward k x) j = dft (unityRoot (2 ^ k))⁻¹ (2 ^ k) (entry x) j := by
  have hhalf (h : 2 ≤ 2 ^ k) : (unityRoot (2 ^ k))⁻¹ ^ (2 ^ k / 2) = -1 := by
    rw [inv_pow, unityRoot_pow_half h (dvd_pow_self 2 (by rintro rfl; omega))]
    norm_num
  have hlevel := entry_level (isTable_clockwiseRoots (2 ^ k)) (Nat.two_pow_pos k) hhalf x
    0 (Nat.mul_one _) hj
  simp only [pow_one, Nat.mul_one, Nat.zero_add] at hlevel
  exact hlevel

/-- The transform with counterclockwise roots is the inverse one, times the length. -/
theorem backward_eq_dft (x : Array (Rect ℝ)) {k j : ℕ} (hj : j < 2 ^ k) :
    entry (backward k x) j = dft (unityRoot (2 ^ k)) (2 ^ k) (entry x) j := by
  have hhalf (h : 2 ≤ 2 ^ k) : unityRoot (2 ^ k) ^ (2 ^ k / 2) = -1 :=
    unityRoot_pow_half h (dvd_pow_self 2 (by rintro rfl; omega))
  have hlevel := entry_level (isTable_conj_clockwiseRoots (2 ^ k)) (Nat.two_pow_pos k) hhalf x
    0 (Nat.mul_one _) hj
  simp only [pow_one, Nat.mul_one, Nat.zero_add] at hlevel
  exact hlevel

/-! ## Orthogonality -/

/-- The powers of a primitive root cancel unless the two places agree. -/
theorem sum_pow_mul_inv_pow {ζ : ℂ} {n : ℕ} (hζ : IsPrimitiveRoot ζ n) (h0 : n ≠ 0) (i j : ℕ) :
    ∑ s ∈ range n, ζ ^ (s * i) * ζ⁻¹ ^ (s * j) = if i ≡ j [MOD n] then (n : ℂ) else 0 := by
  have hne : ζ ≠ 0 := hζ.ne_zero h0
  have hpow : ∀ s, ζ ^ (s * i) * ζ⁻¹ ^ (s * j) = (ζ ^ i * (ζ ^ j)⁻¹) ^ s := by
    intro s
    rw [mul_pow, ← inv_pow, ← pow_mul, ← pow_mul, mul_comm i, mul_comm j]
  have hone : ζ ^ i * (ζ ^ j)⁻¹ = 1 ↔ i ≡ j [MOD n] := by
    have hz : ζ ^ i * (ζ ^ j)⁻¹ = ζ ^ ((i : ℤ) - j) := by
      rw [zpow_sub₀ hne, zpow_natCast, zpow_natCast, div_eq_mul_inv]
    rw [hz, hζ.zpow_eq_one_iff_dvd, Nat.ModEq.comm, Nat.modEq_iff_dvd]
  simp only [hpow]
  split
  · rename_i h
    rw [hone.mpr h]
    simp
  · rename_i h
    have hfull : (ζ ^ i * (ζ ^ j)⁻¹) ^ n = 1 := by
      rw [mul_pow, inv_pow, ← pow_mul, ← pow_mul, mul_comm i, mul_comm j, pow_mul, pow_mul,
        hζ.pow_eq_one]
      simp
    rw [geom_sum_eq (fun hc => h (hone.mp hc)), hfull, sub_self, zero_div]

end Transform

end GyroDelay

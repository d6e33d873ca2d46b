import Mathlib.Data.List.GetD
import GyroDelay.Correlation.Curve
import GyroDelay.Proofs.Correlation.Fourier

/-!
# The correlation curve is the direct sum

The curve that is computed with transforms has at every index the sum of products that
defines the cross-correlation (`full_eq_direct`).

* `dft_correlation`: the transform back from the product of one spectrum and the conjugate
  of the other is the circular correlation, times the length.
* `circular_eq_sum`: so `circular` is the circular correlation of the padded signals.
* `circular_eq_direct`: the padding leaves room for all lags, so no two lags share a place,
  and the places left over hold no product at all.
* `full_eq_ok`: the places of `circular` in the order of `full` are the lags in increasing
  order.
-/

namespace GyroDelay.Correlation

open Finset

/-! ## The direct sum -/

/-- The sum of the products of all samples of `a` with the samples of `b` that stand `lag`
places further on. -/
noncomputable def direct (a b : List ℝ) (lag : ℤ) : ℝ :=
  ∑ m ∈ (range a.length).filter fun m : ℕ => 0 ≤ m + lag ∧ m + lag < b.length,
    a.getD m 0 * b.getD (m + lag).toNat 0

/-- The samples of a signal by their place, zero where there is none. -/
noncomputable def signal (xs : List ℝ) (i : ℤ) : ℝ := if 0 ≤ i then xs.getD i.toNat 0 else 0

theorem signal_natCast (xs : List ℝ) (m : ℕ) : signal xs m = xs.getD m 0 := by
  simp [signal]

theorem signal_of_neg (xs : List ℝ) {i : ℤ} (h : i < 0) : signal xs i = 0 :=
  if_neg (by omega)

theorem signal_of_length_le (xs : List ℝ) {i : ℤ} (h : xs.length ≤ i) : signal xs i = 0 := by
  rw [signal]
  split
  · exact List.getD_eq_default _ _ (by omega)
  · rfl

theorem direct_eq_sum_signal (a b : List ℝ) (lag : ℤ) :
    direct a b lag = ∑ m ∈ range a.length, signal a m * signal b (m + lag) := by
  rw [direct, sum_filter]
  apply sum_congr rfl
  intro m _
  rw [signal_natCast]
  split
  · rename_i h
    rw [signal, if_pos h.1]
  · rename_i h
    have hzero : signal b (m + lag) = 0 := by
      rcases lt_or_ge ((m : ℤ) + lag) 0 with hneg | hpos
      · exact signal_of_neg b hneg
      · exact signal_of_length_le b (by omega)
    rw [hzero, mul_zero]

/-- A lag beyond the second signal has no products. -/
theorem direct_of_length_le (a b : List ℝ) {lag : ℤ} (h : b.length ≤ lag) :
    direct a b lag = 0 := by
  rw [direct_eq_sum_signal]
  apply sum_eq_zero
  intro m _
  rw [signal_of_length_le b (by omega), mul_zero]

/-! ## The circular correlation -/

/-- Back from the spectra to the circular correlation: of all products only those survive
whose places differ by `j`. -/
theorem dft_correlation {n : ℕ} (hn : n ≠ 0) (f g : ℕ → ℝ) (j : ℕ) :
    Transform.dft (Transform.unityRoot n) n (fun s =>
      Transform.dft (Transform.unityRoot n)⁻¹ n (fun m => f m) s *
        starRingEnd ℂ (Transform.dft (Transform.unityRoot n)⁻¹ n (fun m => g m) s)) j =
      n * (∑ m ∈ range n, f ((m + j) % n) * g m : ℝ) := by
  set ζ := Transform.unityRoot n with hζ
  have hroot : IsPrimitiveRoot ζ n := Transform.isPrimitiveRoot_unityRoot hn
  have hconj : starRingEnd ℂ ζ⁻¹ = ζ := by
    rw [map_inv₀, hζ, Transform.conj_unityRoot, inv_inv]
  -- collect the powers that belong to one pair of places
  have hpair (s : ℕ) : ζ ^ (j * s) * (Transform.dft ζ⁻¹ n (fun m => f m) s *
      starRingEnd ℂ (Transform.dft ζ⁻¹ n (fun m => g m) s)) =
      ∑ m ∈ range n, ∑ i ∈ range n,
        (f i * g m : ℂ) * (ζ ^ (s * (m + j)) * ζ⁻¹ ^ (s * i)) := by
    simp only [Transform.dft, map_sum, map_mul, map_pow, hconj, Complex.conj_ofReal]
    rw [sum_mul_sum, sum_comm, mul_sum]
    apply sum_congr rfl
    intro m _
    rw [mul_sum]
    apply sum_congr rfl
    intro i _
    rw [mul_add, pow_add, mul_comm j s]
    ring
  have hcollect : Transform.dft ζ n (fun s => Transform.dft ζ⁻¹ n (fun m => f m) s *
      starRingEnd ℂ (Transform.dft ζ⁻¹ n (fun m => g m) s)) j =
      ∑ m ∈ range n, ∑ i ∈ range n,
        (f i * g m : ℂ) * ∑ s ∈ range n, ζ ^ (s * (m + j)) * ζ⁻¹ ^ (s * i) := by
    rw [Transform.dft, sum_congr rfl (fun s _ => hpair s), sum_comm]
    apply sum_congr rfl
    intro m _
    rw [sum_comm]
    apply sum_congr rfl
    intro i _
    rw [mul_sum]
  rw [hcollect]
  push_cast
  rw [mul_sum]
  apply sum_congr rfl
  intro m _
  -- the one place `i` below `n` that is congruent to `m + j`
  have hmod : (m + j) % n < n := Nat.mod_lt _ (Nat.pos_of_ne_zero hn)
  rw [sum_eq_single_of_mem ((m + j) % n) (mem_range.mpr hmod)]
  · rw [Transform.sum_pow_mul_inv_pow hroot hn, if_pos (Nat.mod_modEq _ _).symm]
    ring
  · intro i hi hne
    rw [Transform.sum_pow_mul_inv_pow hroot hn, if_neg, mul_zero]
    intro hcong
    apply hne
    rw [hcong, Nat.mod_eq_of_lt (mem_range.mp hi)]

theorem entry_padded (xs : List ℝ) (n j : ℕ) :
    Transform.entry (padded xs n) j = (xs.getD j 0 : ℝ) := by
  have hget : (padded xs n).getD j Rect.zero = ⟨xs.getD j 0, 0⟩ := by
    rw [padded, Array.getD_eq_getD_getElem?, Array.getElem?_append]
    simp only [List.size_toArray, List.length_map, Scalar.zero_real]
    split
    · rename_i h
      simp [h]
    · rename_i h
      rw [List.getD_eq_default _ _ (by omega), Array.getElem?_replicate]
      split <;> simp [Rect.zero]
  rw [Transform.entry, hget]
  rfl

theorem length_circular {α : Type} [Scalar α] (k : ℕ) (a b : List α) :
    (circular k a b).length = 2 ^ k := by
  simp only [circular, List.length_map, Array.length_toList, Transform.size_backward]

/-- The spectra multiplied, the second one conjugated, place by place. -/
theorem entry_product {x y : Array (Rect ℝ)} {j : ℕ} (hx : j < x.size) (hy : j < y.size) :
    Transform.entry (Array.zipWith (fun u v => u.mul v.conj) x y) j =
      Transform.entry x j * starRingEnd ℂ (Transform.entry y j) :=
  Transform.entry_zipWith (g := fun u v => u * starRingEnd ℂ v)
    (fun u v => by rw [Rect.toComplex_mul, Rect.toComplex_conj]) hx hy

/-- The circular correlation as a sum over one round. -/
theorem circular_eq_sum (a b : List ℝ) {k j : ℕ} (hj : j < 2 ^ k) :
    (circular k a b)[j]? = some (∑ m ∈ range (2 ^ k), a.getD ((m + j) % 2 ^ k) 0 * b.getD m 0) := by
  have hn : 2 ^ k ≠ 0 := (Nat.two_pow_pos k).ne'
  set product := Array.zipWith (fun u v => Rect.mul u v.conj)
    (Transform.forward k (padded a (2 ^ k))) (Transform.forward k (padded b (2 ^ k))) with hp
  have hproduct (s : ℕ) (hs : s < 2 ^ k) : Transform.entry product s =
      Transform.dft (Transform.unityRoot (2 ^ k))⁻¹ (2 ^ k) (fun m => (a.getD m 0 : ℝ)) s *
        starRingEnd ℂ (Transform.dft (Transform.unityRoot (2 ^ k))⁻¹ (2 ^ k)
          (fun m => (b.getD m 0 : ℝ)) s) := by
    rw [hp, entry_product (by rwa [Transform.size_forward]) (by rwa [Transform.size_forward]),
      Transform.forward_eq_dft _ hs, Transform.forward_eq_dft _ hs]
    simp only [Transform.dft, entry_padded]
  have hback : Transform.entry (Transform.backward k product) j =
      (2 ^ k : ℕ) * (∑ m ∈ range (2 ^ k), a.getD ((m + j) % 2 ^ k) 0 * b.getD m 0 : ℝ) := by
    rw [Transform.backward_eq_dft _ hj,
      ← dft_correlation hn (fun m => a.getD m 0) (fun m => b.getD m 0)]
    apply sum_congr rfl
    intro s hs
    rw [hproduct s (mem_range.mp hs)]
  have hsize : j < (Transform.backward k product).size := by rwa [Transform.size_backward]
  have hre : (Transform.backward k product)[j].re =
      (2 ^ k : ℕ) * ∑ m ∈ range (2 ^ k), a.getD ((m + j) % 2 ^ k) 0 * b.getD m 0 := by
    rw [Transform.entry_of_lt hsize] at hback
    have h := congrArg Complex.re hback
    rwa [← Complex.ofReal_natCast, ← Complex.ofReal_mul, Complex.ofReal_re] at h
  have hcircular : circular k a b = (Transform.backward k product).toList.map fun u =>
      u.re * (1 / ((2 ^ k : ℕ) : ℝ)) := by
    simp only [circular, Scalar.ofNat_real, Nat.cast_one, Nat.pow_eq]
    rfl
  rw [hcircular, List.getElem?_map, Array.getElem?_toList, Array.getElem?_eq_getElem hsize,
    Option.map_some, hre]
  congr 1
  field_simp

/-! ## No two lags share a place -/

/-- With room for all lags, going round to a place is going on by a lag. -/
theorem eq_mod_iff {la lb n i m l : ℕ} (hn : la + lb - 1 ≤ n) (hi : i < n) (hm : m < la)
    (hl : l < lb) : m = (l + (la + (n - 1 - i))) % n ↔ (l : ℤ) = m + signedLag i la := by
  rw [signedLag]
  rcases lt_or_ge (l + (la + (n - 1 - i))) n with hlt | hge
  · rw [Nat.mod_eq_of_lt hlt]
    omega
  · rw [Nat.mod_eq_sub_mod hge, Nat.mod_eq_of_lt (by omega)]
    omega

/-- The sample at a place that is gone round to. -/
theorem getD_eq_sum (a : List ℝ) (j : ℕ) :
    a.getD j 0 = ∑ m ∈ range a.length, if m = j then a.getD m 0 else 0 := by
  rw [sum_ite_eq' (range a.length) j]
  split
  · rfl
  · rename_i h
    exact List.getD_eq_default _ _ (by simpa using h)

/-- The sample at a place that is gone on to. -/
theorem signal_eq_sum (b : List ℝ) (i : ℤ) :
    signal b i = ∑ l ∈ range b.length, if (l : ℤ) = i then b.getD l 0 else 0 := by
  rcases lt_or_ge i 0 with hneg | hpos
  · rw [signal_of_neg b hneg, sum_eq_zero]
    intro l _
    exact if_neg (by omega)
  · obtain ⟨j, rfl⟩ := Int.eq_ofNat_of_zero_le hpos
    rw [signal_natCast, getD_eq_sum]
    simp only [Nat.cast_inj]

/-- The padding leaves room for all lags: each place of the circular correlation holds the
sum of one lag only. -/
theorem circular_eq_direct {a b : List ℝ} (ha : a ≠ []) {k : ℕ}
    (hk : a.length + b.length - 1 ≤ 2 ^ k) {i : ℕ} (hi : i < 2 ^ k) :
    (circular k a b)[(a.length + (2 ^ k - 1 - i)) % 2 ^ k]? =
      some (direct a b (signedLag i a.length)) := by
  have hla : 0 < a.length := List.length_pos_iff.mpr ha
  have hlb : range b.length ⊆ range (2 ^ k) := range_subset_range.mpr (by omega)
  rw [circular_eq_sum a b (Nat.mod_lt _ (Nat.two_pow_pos k))]
  congr 1
  simp only [Nat.add_mod_mod]
  rw [← sum_subset hlb, direct_eq_sum_signal]
  · calc ∑ l ∈ range b.length,
          a.getD ((l + (a.length + (2 ^ k - 1 - i))) % 2 ^ k) 0 * b.getD l 0
        = ∑ l ∈ range b.length, ∑ m ∈ range a.length,
            (if m = (l + (a.length + (2 ^ k - 1 - i))) % 2 ^ k then a.getD m 0 else 0)
              * b.getD l 0 := by
          apply sum_congr rfl
          intro l _
          rw [getD_eq_sum, sum_mul]
      _ = ∑ m ∈ range a.length, ∑ l ∈ range b.length,
            a.getD m 0 *
              if (l : ℤ) = m + signedLag i a.length then b.getD l 0 else 0 := by
          rw [sum_comm]
          apply sum_congr rfl
          intro m hm
          apply sum_congr rfl
          intro l hl
          rw [ite_mul, mul_ite, zero_mul, mul_zero]
          exact if_congr (eq_mod_iff hk hi (mem_range.mp hm) (mem_range.mp hl)) rfl rfl
      _ = ∑ m ∈ range a.length, signal a m * signal b (m + signedLag i a.length) := by
          apply sum_congr rfl
          intro m _
          rw [← mul_sum, ← signal_eq_sum, signal_natCast]
  · intro l _ hl
    rw [List.getD_eq_default b _ (by simpa using hl), mul_zero]

/-! ## The whole curve -/

/-- The length of the padded signals is the least power of two with room for all lags. -/
theorem isLeast_paddedLevel {n : ℕ} (h : 0 < n) :
    IsLeast {l | (∃ k, l = 2 ^ k) ∧ n ≤ l} (2 ^ paddedLevel n) := by
  rw [paddedLevel]
  split
  · rename_i hle
    refine ⟨⟨⟨0, rfl⟩, by simpa using hle⟩, ?_⟩
    rintro l ⟨-, hl⟩
    rw [pow_zero]
    omega
  · rename_i hgt
    have hne : n - 1 ≠ 0 := by omega
    refine ⟨⟨⟨_, rfl⟩, ?_⟩, ?_⟩
    · have hlt := (Nat.log2_lt hne (k := Nat.log2 (n - 1) + 1)).mp (Nat.lt_succ_self _)
      omega
    · rintro l ⟨⟨k, rfl⟩, hl⟩
      have hle := (Nat.log2_lt hne (k := k)).mpr (by omega)
      exact Nat.pow_le_pow_right (by omega) hle

theorem length_rotate {β : Type} (n : ℕ) (xs : List β) : (rotate n xs).length = xs.length := by
  simp only [rotate, List.length_append, List.length_drop, List.length_take]
  omega

/-- Entries of a list that is turned by `n` places. -/
theorem getElem?_rotate {β : Type} {n : ℕ} {xs : List β} (hn : n ≤ xs.length) {j : ℕ}
    (hj : j < xs.length) : (rotate n xs)[j]? = xs[(n + j) % xs.length]? := by
  rw [rotate, List.getElem?_append, List.length_drop]
  split
  · rename_i h
    rw [List.getElem?_drop, Nat.mod_eq_of_lt (by omega)]
  · rename_i h
    rw [List.getElem?_take, if_pos (by omega), Nat.mod_eq_sub_mod (by omega),
      Nat.mod_eq_of_lt (by omega)]
    congr 1
    omega

theorem length_of_full {α : Type} [Scalar α] {a b values : List α} (h : full a b = .ok values) :
    values.length = 2 ^ paddedLevel (a.length + b.length - 1) := by
  rw [full] at h
  split at h
  · cases h
  · cases h
    rw [List.length_reverse, length_rotate, length_circular]

/-- Every entry of the curve is the direct sum of its lag. -/
theorem full_eq_ok {a b : List ℝ} (ha : a ≠ []) (hb : b ≠ []) :
    ∃ values, full a b = .ok values ∧
      values.length = 2 ^ paddedLevel (a.length + b.length - 1) ∧
      ∀ i, i < values.length → values[i]? = some (direct a b (signedLag i a.length)) := by
  set k := paddedLevel (a.length + b.length - 1) with hk
  have hla : 0 < a.length := List.length_pos_iff.mpr ha
  have hlb : 0 < b.length := List.length_pos_iff.mpr hb
  have hroom : a.length + b.length - 1 ≤ 2 ^ k := (isLeast_paddedLevel (by omega)).1.2
  have hlength := length_circular k a b
  have hempty : (a.isEmpty || b.isEmpty) = false := by simp [ha, hb]
  refine ⟨(rotate a.length (circular k a b)).reverse, ?_, ?_, ?_⟩
  · rw [full, hempty]
    rfl
  · rw [List.length_reverse, length_rotate, hlength]
  · intro i hi
    rw [List.length_reverse, length_rotate, hlength] at hi
    rw [List.getElem?_reverse (by rw [length_rotate, hlength]; exact hi), length_rotate, hlength,
      getElem?_rotate (by omega) (by omega), hlength]
    exact circular_eq_direct ha hroom hi

/-- **The curve is the direct sum.** Two signals with samples have a curve of the least
power of two that has room for all lags. Its entries are the direct sums of the lags in
increasing order, then zeros. Without samples there is no curve. -/
theorem full_eq_direct (a b : List ℝ) :
    (a = [] ∨ b = [] → full a b = .error (.invalidInput (.emptySignal a.length b.length))) ∧
    (a ≠ [] → b ≠ [] → ∃ values, full a b = .ok values ∧
      IsLeast {n | (∃ k, n = 2 ^ k) ∧ a.length + b.length - 1 ≤ n} values.length ∧
      a.length ≤ values.length ∧
      (∀ i, i ≤ a.length + b.length - 2 →
        values[i]? = some (direct a b (signedLag i a.length))) ∧
      ∀ i, a.length + b.length - 2 < i → i < values.length → values[i]? = some 0) := by
  constructor
  · intro h
    have hempty : (a.isEmpty || b.isEmpty) = true := by simpa using h
    rw [full, hempty]
    rfl
  · intro ha hb
    have hla : 0 < a.length := List.length_pos_iff.mpr ha
    have hlb : 0 < b.length := List.length_pos_iff.mpr hb
    obtain ⟨values, hfull, hlength, hentry⟩ := full_eq_ok ha hb
    have hleast := isLeast_paddedLevel (n := a.length + b.length - 1) (by omega)
    have hroom : a.length + b.length - 1 ≤ values.length := hlength ▸ hleast.1.2
    refine ⟨values, hfull, hlength ▸ hleast, by omega, ?_, ?_⟩
    · intro i hi
      exact hentry i (by omega)
    · intro i hi hlt
      rw [hentry i hlt, direct_of_length_le]
      rw [signedLag]
      omega

theorem full_three_one : ∃ values, full ([1, 2, 3] : List ℝ) [4] = .ok values ∧
    values[0]? = some 12 ∧ values[2]? = some 4 ∧ values[3]? = some 0 := by
  obtain ⟨values, hfull, hleast, -, hentry, hzero⟩ :=
    (full_eq_direct [1, 2, 3] [4]).2 (by simp) (by simp)
  have hlength : 3 < values.length := by
    obtain ⟨⟨k, hk⟩, hroom⟩ := hleast.1
    have hk2 : k ≠ 0 ∧ k ≠ 1 := by
      constructor <;> (rintro rfl; simp [hk] at hroom)
    have hpow : 2 ^ 2 ≤ 2 ^ k := Nat.pow_le_pow_right (by omega) (by omega)
    omega
  refine ⟨values, hfull, ?_, ?_, hzero 3 (by simp) hlength⟩
  · rw [hentry 0 (by simp)]
    norm_num [direct, signedLag, sum_filter, sum_range_succ]
  · rw [hentry 2 (by simp)]
    norm_num [direct, signedLag, sum_filter, sum_range_succ]

end GyroDelay.Correlation

import GyroDelay.Proofs.Correlation.Overlap
import GyroDelay.Proofs.Correlation.Refinement
import GyroDelay.Proofs.Correlation.Scaling

/-!
# The correlation of a shifted signal

A signal that starts `p` samples into the first stream and `r` samples into the second one,
with zeros on all sides, has a correlation curve with a single highest entry, that of the lag
`r - p` (`between_unique`). Every other entry is lower, since the squared differences of a
finite signal and its shift do not all vanish (`direct_self_lt`).

* `between_shift`: the curve of a signal of two samples or more has no flat piece at its peak.
* `between_shifted_copy`: the peak of a signal and its shifted copy lies at the shift and is as
  high as the energy of the signal times the gain.
-/

namespace GyroDelay

/-- A list with `p` copies of an entry in front of it and `q` behind it. -/
def surround {β : Type} (z : β) (p q : ℕ) (xs : List β) : List β :=
  List.replicate p z ++ xs ++ List.replicate q z

section Surround

variable {β γ : Type} (z : β) (p q : ℕ) (xs : List β)

theorem length_surround : (surround z p q xs).length = p + xs.length + q := by
  rw [surround, List.length_append, List.length_append, List.length_replicate,
    List.length_replicate]

theorem map_surround (f : β → γ) :
    (surround z p q xs).map f = surround (f z) p q (xs.map f) := by
  simp [surround]

theorem drop_surround {k : ℕ} (h : k ≤ p) :
    (surround z p q xs).drop k = surround z (p - k) q xs := by
  rw [surround, surround, List.append_assoc, List.append_assoc,
    List.drop_append_of_le_length (by rw [List.length_replicate]; exact h), List.drop_replicate]

theorem take_surround {k : ℕ} (h : k ≤ q) :
    (surround z p q xs).take (p + xs.length + k) = surround z p k xs := by
  have hlen : (List.replicate p z ++ xs).length = p + xs.length := by simp
  rw [surround, surround, ← hlen, List.take_length_add_append, List.take_replicate,
    Nat.min_eq_left h]

end Surround

namespace Correlation

open Finset

/-! ## Sums over a shifted signal -/

theorem signal_surround (p q : ℕ) (xs : List ℝ) (i : ℤ) :
    signal (surround 0 p q xs) i = signal xs (i - p) := by
  rcases lt_or_ge i p with hlow | hhigh
  · rw [signal_of_neg xs (by omega)]
    rcases lt_or_ge i 0 with hneg | hpos
    · exact signal_of_neg _ hneg
    · obtain ⟨m, rfl⟩ := Int.eq_ofNat_of_zero_le hpos
      have hm : m < (List.replicate p (0 : ℝ)).length := by
        rw [List.length_replicate]
        omega
      rw [signal_natCast, surround, List.append_assoc, List.getD_append _ _ _ _ hm,
        List.getD_replicate _ (by omega)]
  · obtain ⟨j, rfl⟩ : ∃ j : ℕ, i = (p + j : ℕ) := ⟨(i - p).toNat, by omega⟩
    have hj : ((p + j : ℕ) : ℤ) - p = j := by omega
    rw [hj, signal_natCast, signal_natCast, surround, List.append_assoc,
      List.getD_append_right _ _ _ _ (by simp), List.length_replicate, Nat.add_sub_cancel_left]
    rcases lt_or_ge j xs.length with hin | hout
    · exact List.getD_append _ _ _ _ hin
    · rw [List.getD_append_right _ _ _ _ hout, List.getD_eq_default xs _ hout]
      rw [List.getD_eq_getElem?_getD, List.getElem?_replicate]
      split <;> rfl

/-- The zeros around two signals shift their lags. -/
theorem direct_surround (p q r s : ℕ) (xs ys : List ℝ) (lag : ℤ) :
    direct (surround 0 p q xs) (surround 0 r s ys) lag = direct xs ys (lag + p - r) := by
  rw [direct_eq_sum_signal, direct_eq_sum_signal, length_surround, sum_range_add, sum_range_add]
  simp only [signal_surround]
  have hbefore : ∑ m ∈ range p, signal xs (m - p) * signal ys (m + lag - r) = 0 := by
    refine sum_eq_zero fun m hm => ?_
    rw [signal_of_neg xs (by have := mem_range.mp hm; omega), zero_mul]
  have hbehind : ∑ m ∈ range q, signal xs (((p + xs.length + m : ℕ) : ℤ) - p) *
      signal ys (((p + xs.length + m : ℕ) : ℤ) + lag - r) = 0 := by
    refine sum_eq_zero fun m _ => ?_
    rw [signal_of_length_le xs (by omega), zero_mul]
  rw [hbefore, hbehind, zero_add, add_zero]
  refine sum_congr rfl fun m _ => ?_
  have hx : ((p + m : ℕ) : ℤ) - p = m := by omega
  have hy : ((p + m : ℕ) : ℤ) + lag - r = m + (lag + p - r) := by omega
  rw [hx, hy]

/-- The squares of a shifted signal sum up to no more than those of the signal. -/
theorem sum_sq_shift_le (u : List ℝ) (k : ℤ) :
    ∑ i ∈ range u.length, signal u (i + k) ^ 2 ≤ ∑ i ∈ range u.length, signal u i ^ 2 := by
  set inside := (range u.length).filter fun i : ℕ => 0 ≤ i + k ∧ i + k < u.length with hinside
  have hplace {i : ℕ} (hi : i ∈ inside) : (((i + k).toNat : ℕ) : ℤ) = i + k ∧
      (i + k).toNat < u.length := by
    have hbounds := (mem_filter.mp hi).2
    omega
  calc ∑ i ∈ range u.length, signal u (i + k) ^ 2
      = ∑ i ∈ inside, signal u (i + k) ^ 2 := by
        refine (sum_subset (filter_subset _ _) fun i hi hout => ?_).symm
        have hbounds : ¬ (0 ≤ i + k ∧ i + k < u.length) := fun h => hout (mem_filter.mpr ⟨hi, h⟩)
        have hzero : signal u (i + k) = 0 := by
          rcases lt_or_ge (i + k) 0 with hneg | hpos
          · exact signal_of_neg u hneg
          · exact signal_of_length_le u (by omega)
        rw [hzero, sq, zero_mul]
    _ = ∑ i ∈ inside, signal u (i + k).toNat ^ 2 :=
        sum_congr rfl fun i hi => by rw [(hplace hi).1]
    _ = ∑ j ∈ inside.image fun i : ℕ => (i + k).toNat, signal u j ^ 2 := by
        refine (sum_image (f := fun j : ℕ => signal u j ^ 2) fun i hi j hj hij => ?_).symm
        have hi' := (hplace hi).1
        have hj' := (hplace hj).1
        omega
    _ ≤ ∑ i ∈ range u.length, signal u i ^ 2 := by
        refine sum_le_sum_of_subset_of_nonneg ?_ fun _ _ _ => sq_nonneg _
        intro j hj
        obtain ⟨i, hi, rfl⟩ := mem_image.mp hj
        exact mem_range.mpr (hplace hi).2

/-- A signal that is not zero has an entry whose shift is zero. -/
theorem exists_signal_shift_eq_zero {u : List ℝ} (h : ∃ x ∈ u, x ≠ 0) {k : ℤ} (hk : k ≠ 0) :
    ∃ i ∈ range u.length, signal u i ≠ 0 ∧ signal u (i + k) = 0 := by
  set support := (range u.length).filter fun i : ℕ => signal u i ≠ 0 with hsupport
  have hmem (i : ℕ) : i ∈ support ↔ i < u.length ∧ signal u i ≠ 0 := by
    rw [hsupport, mem_filter, mem_range]
  have hne : support.Nonempty := by
    obtain ⟨x, hx, hx0⟩ := h
    obtain ⟨i, hi, rfl⟩ := List.getElem_of_mem hx
    refine ⟨i, (hmem i).mpr ⟨hi, ?_⟩⟩
    rw [signal_natCast, List.getD_eq_getElem _ _ hi]
    exact hx0
  -- the last entry of the support if the shift is to the right, the first one otherwise
  obtain ⟨i, hi, hextreme⟩ : ∃ i ∈ support, ∀ j ∈ support, (j : ℤ) ≠ i + k := by
    rcases lt_or_gt_of_ne hk with hneg | hpos
    · obtain ⟨i, hi, hmin⟩ := exists_min_image support id hne
      exact ⟨i, hi, fun j hj => by have := hmin j hj; simp only [id] at this; omega⟩
    · obtain ⟨i, hi, hmax⟩ := exists_max_image support id hne
      exact ⟨i, hi, fun j hj => by have := hmax j hj; simp only [id] at this; omega⟩
  obtain ⟨hlt, hi0⟩ := (hmem i).mp hi
  refine ⟨i, mem_range.mpr hlt, hi0, ?_⟩
  by_contra hshift
  rcases lt_or_ge ((i : ℤ) + k) 0 with hneg | hpos
  · exact hshift (signal_of_neg u hneg)
  · obtain ⟨j, hj⟩ := Int.eq_ofNat_of_zero_le hpos
    rcases lt_or_ge j u.length with hin | hout
    · rw [hj] at hshift
      exact hextreme j ((hmem j).mpr ⟨hin, hshift⟩) hj.symm
    · exact hshift (signal_of_length_le u (by omega))

/-- **The correlation of a signal with itself.** It is highest without a shift. -/
theorem direct_self_lt {u : List ℝ} (h : ∃ x ∈ u, x ≠ 0) {k : ℤ} (hk : k ≠ 0) :
    direct u u k < direct u u 0 := by
  rw [direct_eq_sum_signal, direct_eq_sum_signal]
  obtain ⟨i, hi, hne, hzero⟩ := exists_signal_shift_eq_zero h hk
  have hpos : 0 < ∑ i ∈ range u.length, (signal u i - signal u (i + k)) ^ 2 := by
    refine sum_pos' (fun _ _ => sq_nonneg _) ⟨i, hi, ?_⟩
    rw [hzero, sub_zero]
    positivity
  have hexpand : ∑ i ∈ range u.length, (signal u i - signal u (i + k)) ^ 2 =
      ∑ i ∈ range u.length, signal u i ^ 2 + ∑ i ∈ range u.length, signal u (i + k) ^ 2 -
        2 * ∑ i ∈ range u.length, signal u i * signal u (i + k) := by
    rw [mul_sum, ← sum_add_distrib, ← sum_sub_distrib]
    exact sum_congr rfl fun i _ => by ring
  have hself : ∑ i ∈ range u.length, signal u i * signal u (i + 0) =
      ∑ i ∈ range u.length, signal u i ^ 2 :=
    sum_congr rfl fun i _ => by rw [add_zero, sq]
  have hle := sum_sq_shift_le u k
  rw [hself]
  linarith

/-- Without a shift the correlation of a signal with itself is its energy. -/
theorem direct_self_zero (u : List ℝ) : direct u u 0 = (u.map (· ^ 2)).sum := by
  have hfacing : facing u u 0 = u.zip u := facing_natCast u u 0
  rw [direct_eq_sum_facing, hfacing, List.zip_eq_zipWith, List.map_zipWith, List.zipWith_self]
  simp only [sq]

/-! ## The peak -/

theorem isFirstMax_of_lt {xs : List ℝ} {p : ℕ} (hp : p < xs.length)
    (hlt : ∀ i, i < xs.length → i ≠ p → xs.getD i 0 < xs.getD p 0) : IsFirstMax xs p := by
  refine ⟨hp, fun i hi => hlt i (hi.trans hp) hi.ne, fun i hi => ?_⟩
  by_cases hne : i = p
  · rw [hne]
  · exact (hlt i hi hne).le

/-- **The only highest entry.** The curve of two streams that hold the same signal with different
gains is highest at the lag between both places, and lower at any other. -/
theorem between_unique {u : List ℝ} (hu : ∃ x ∈ u, x ≠ 0) {f g : ℝ} (hf : 0 < f) (hg : 0 < g)
    (p q r s : ℕ) :
    ∃ c : Curve ℝ,
      Curve.between (surround 0 p q (u.map (f * ·))) (surround 0 r s (u.map (g * ·))) = .ok c ∧
        c.peak = r + u.length + q - 1 ∧
        p + u.length + q + (r + u.length + s) - 1 ≤ c.values.length ∧
        c.values.getD c.peak 0 = f * g * direct u u 0 ∧
        ∀ i, i < c.values.length → i ≠ c.peak →
          c.values.getD i 0 < c.values.getD c.peak 0 := by
  have hlu : 0 < u.length := by
    obtain ⟨x, hx, -⟩ := hu
    exact List.length_pos_of_mem hx
  have hlx : (surround 0 p q (u.map (f * ·))).length = p + u.length + q := by
    rw [length_surround, List.length_map]
  have hly : (surround 0 r s (u.map (g * ·))).length = r + u.length + s := by
    rw [length_surround, List.length_map]
  obtain ⟨values, hfull, hlen, hget⟩ := full_eq_ok
    (List.length_pos_iff.mp (by omega : 0 < (surround 0 p q (u.map (f * ·))).length))
    (List.length_pos_iff.mp (by omega : 0 < (surround 0 r s (u.map (g * ·))).length))
  have hroom := (isLeast_paddedLevel (n := p + u.length + q + (r + u.length + s) - 1)
    (by omega)).1.2
  rw [hlx, hly] at hlen
  rw [← hlen] at hroom
  have hvalue {i : ℕ} (hi : i < values.length) : values.getD i 0 =
      f * g * direct u u ((i : ℤ) - (r + u.length + q - 1 : ℕ)) := by
    have hlag : signedLag i (p + u.length + q) + p - r = i - (r + u.length + q - 1 : ℕ) := by
      rw [signedLag]
      omega
    rw [List.getD_eq_getElem?_getD, hget i hi, Option.getD_some, direct_surround,
      direct_map_mul, hlx, hlag]
  have hpeak : values.getD (r + u.length + q - 1) 0 = f * g * direct u u 0 := by
    rw [hvalue (by omega), sub_self]
  have hlower (i : ℕ) (hi : i < values.length) (hne : i ≠ r + u.length + q - 1) :
      values.getD i 0 < values.getD (r + u.length + q - 1) 0 := by
    rw [hvalue hi, hpeak]
    exact mul_lt_mul_of_pos_left (direct_self_lt hu (by omega)) (mul_pos hf hg)
  refine ⟨⟨values, r + u.length + q - 1⟩, ?_, rfl, hroom, hpeak, hlower⟩
  rw [Curve.between, hfull, Except.map, argmax_eq (isFirstMax_of_lt (by omega) hlower)]

/-- **The peak of a shifted signal.** The curve of two streams that hold the same signal with
different gains has its highest entry at the lag between both places, and only there. -/
theorem between_shift {u : List ℝ} (hu : ∃ x ∈ u, x ≠ 0) (h2 : 2 ≤ u.length) {f g : ℝ}
    (hf : 0 < f) (hg : 0 < g) (p q r s : ℕ) :
    ∃ c : Curve ℝ,
      Curve.between (surround 0 p q (u.map (f * ·))) (surround 0 r s (u.map (g * ·))) = .ok c ∧
        c.peak = r + u.length + q - 1 ∧ IsFirstMax c.values c.peak ∧
        c.peak + 1 < c.values.length ∧ ¬ IsFlat c := by
  obtain ⟨c, hcurve, hpeak, hroom, -, hlower⟩ := between_unique hu hf hg p q r s
  have hnext : c.peak + 1 < c.values.length := by omega
  refine ⟨c, hcurve, hpeak, isFirstMax_of_lt (Nat.lt_of_succ_lt hnext) hlower, hnext, ?_⟩
  rintro ⟨hflat, -⟩
  exact (hlower _ hnext (Nat.succ_ne_self _)).ne hflat

/-- **The lag of a shifted copy.** A signal that is not zero, with entries of any signs, is found
in a copy of it with another number of zeros around it and a gain: the peak of the curve is at the
exact lag, it is the energy of the signal times the gain, and every other entry of the curve, those
of the padding included, is lower. -/
theorem between_shifted_copy {x : List ℝ} (hx : ∃ v ∈ x, v ≠ 0) {g : ℝ} (hg : 0 < g)
    (p q r s : ℕ) :
    ∃ c : Curve ℝ, Curve.between (surround 0 p q x) (surround 0 r s (x.map (g * ·))) = .ok c ∧
      signedLag c.peak (surround 0 p q x).length = (r : ℤ) - p ∧
      c.values[c.peak]? = some (g * (x.map (· ^ 2)).sum) ∧
      ∀ i v, i ≠ c.peak → c.values[i]? = some v → v < g * (x.map (· ^ 2)).sum := by
  obtain ⟨c, hcurve, hpeak, hroom, htop, hlower⟩ := between_unique hx one_pos hg p q r s
  have hlx : 0 < x.length := by
    obtain ⟨v, hv, -⟩ := hx
    exact List.length_pos_of_mem hv
  have hself : x.map ((1 : ℝ) * ·) = x := List.map_id'' one_mul x
  rw [hself] at hcurve
  rw [one_mul, direct_self_zero] at htop
  refine ⟨c, hcurve, ?_, ?_, fun i v hne hv => ?_⟩
  · rw [signedLag, hpeak, length_surround]
    omega
  · have hin : c.peak < c.values.length := by omega
    rw [List.getElem?_eq_getElem hin, ← htop, List.getD_eq_getElem _ _ hin]
  · have hlt := hlower i (List.getElem?_eq_some_iff.mp hv).1 hne
    rwa [htop, List.getD_eq_getElem?_getD, hv] at hlt

/-- Two samples of different signs, three times as large and one sample later in the copy. -/
theorem between_shifted_copy_later :
    let a : List ℝ := [0, 2, -1]
    let b : List ℝ := [0, 0, 3 * 2, 3 * -1, 0]
    (∃ v ∈ ([2, -1] : List ℝ), v ≠ 0) ∧ (0 : ℝ) < 3 ∧
      ∃ c : Curve ℝ, Curve.between a b = .ok c ∧ signedLag c.peak a.length = 1 ∧
        c.values[c.peak]? = some 15 ∧ ∀ i v, i ≠ c.peak → c.values[i]? = some v → v < 15 := by
  intro a b
  have hx : ∃ v ∈ ([2, -1] : List ℝ), v ≠ 0 := ⟨2, by simp, two_ne_zero⟩
  have hg : (0 : ℝ) < 3 := three_pos
  have henergy : 3 * (([2, -1] : List ℝ).map (· ^ 2)).sum = 15 := by norm_num
  obtain ⟨c, hcurve, hlag, htop, hlower⟩ := between_shifted_copy hx hg 1 0 2 1
  rw [henergy] at htop hlower
  exact ⟨hx, hg, c, hcurve, hlag, htop, hlower⟩

end Correlation

end GyroDelay

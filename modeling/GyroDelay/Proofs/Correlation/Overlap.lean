import GyroDelay.Calibration
import GyroDelay.Proofs.Correlation.Direct
import GyroDelay.Proofs.Matrix

/-!
# The overlap holds the pairs that the correlation sums

At a lag, entry `m` of a first list faces entry `m + lag` of a second one (`facing`). The overlap of
two streams drops the leading rows that face nothing and keeps equally many rows of both, so for a
lag of either sign it consists of the pairs of facing rows, in order (`overlap_eq`). The correlation
of two signals at a lag sums the products of the same pairs (`direct_eq_sum_facing`), and so a
correlation curve of magnitudes can be read off the overlaps of the streams (`overlap_spec`).
-/

namespace GyroDelay

variable {β γ : Type}

/-! ## Facing entries -/

/-- The entry at a place, which may lie before the first one. -/
def itemAt? (xs : List β) (i : ℤ) : Option β := if 0 ≤ i then xs[i.toNat]? else none

/-- The pairs of entry `m` of the first and entry `m + lag` of the second list, in the order of `m`,
for all `m` for which there are both. -/
def facing (xs : List β) (ys : List γ) (lag : ℤ) : List (β × γ) :=
  (List.range xs.length).filterMap fun m : ℕ => Option.map₂ Prod.mk xs[m]? (itemAt? ys (m + lag))

theorem itemAt?_natCast (xs : List β) (n : ℕ) : itemAt? xs n = xs[n]? := by
  rw [itemAt?, if_pos (Int.natCast_nonneg n), Int.toNat_natCast]

theorem itemAt?_of_neg (xs : List β) {i : ℤ} (h : i < 0) : itemAt? xs i = none :=
  if_neg (not_le.mpr h)

theorem getElem?_zip (xs : List β) (ys : List γ) (i : ℕ) :
    (xs.zip ys)[i]? = Option.map₂ Prod.mk xs[i]? ys[i]? := by
  rw [List.zip, List.getElem?_zipWith]
  cases xs[i]? <;> cases ys[i]? <;> rfl

/-- The places of a list, and more, give the list. -/
theorem filterMap_getElem? (xs : List β) {n : ℕ} (h : xs.length ≤ n) :
    (List.range n).filterMap (fun i => xs[i]?) = xs := by
  induction xs generalizing n with
  | nil => simp
  | cons x xs ih =>
    obtain ⟨n, rfl⟩ : ∃ m, n = m + 1 := ⟨n - 1, by rw [List.length_cons] at h; omega⟩
    have hfirst : (x :: xs)[0]? = some x := rfl
    rw [List.range_succ_eq_map, List.filterMap_cons_some hfirst, List.filterMap_map]
    congr 1
    exact ih (Nat.le_of_succ_le_succ h)

/-- At a lag to the right the second list loses its first entries. -/
theorem facing_natCast (xs : List β) (ys : List γ) (k : ℕ) :
    facing xs ys k = xs.zip (ys.drop k) := by
  have hlen : (xs.zip (ys.drop k)).length ≤ xs.length := by
    rw [List.length_zip]
    exact Nat.min_le_left _ _
  rw [facing, ← filterMap_getElem? _ hlen]
  refine List.filterMap_congr fun m _ => ?_
  rw [getElem?_zip, List.getElem?_drop, ← Nat.cast_add, itemAt?_natCast, Nat.add_comm k m]

/-- At a lag to the left the first list loses its first entries. -/
theorem facing_neg_natCast (xs : List β) (ys : List γ) (k : ℕ) :
    facing xs ys (-k) = (xs.drop k).zip ys := by
  have hlen : ((xs.drop k).zip ys).length ≤ xs.length - k := by
    rw [List.length_zip, List.length_drop]
    exact Nat.min_le_left _ _
  have hbefore {m : ℕ} (hm : m < k) : Option.map₂ Prod.mk xs[m]? (itemAt? ys (m + -k)) = none := by
    rw [itemAt?_of_neg ys (by omega), Option.map₂_none_right]
  rcases Nat.le_or_le k xs.length with hk | hk
  · obtain ⟨n, hn⟩ := Nat.exists_eq_add_of_le hk
    rw [facing, hn, List.range_add, List.filterMap_append,
      List.filterMap_eq_nil_iff.mpr fun m hm => hbefore (List.mem_range.mp hm), List.nil_append,
      List.filterMap_map, ← filterMap_getElem? _ (hlen.trans (by omega : xs.length - k ≤ n))]
    refine List.filterMap_congr fun m _ => ?_
    have hshift : ((k + m : ℕ) : ℤ) + -k = m := by omega
    rw [getElem?_zip, List.getElem?_drop, ← itemAt?_natCast ys m, Function.comp_apply, hshift]
  · rw [List.drop_of_length_le hk, List.zip_nil_left, facing]
    exact List.filterMap_eq_nil_iff.mpr fun m hm =>
      hbefore ((List.mem_range.mp hm).trans_le hk)

theorem facing_eq_zip (xs : List β) (ys : List γ) (lag : ℤ) :
    facing xs ys lag = (if 0 ≤ lag then xs else xs.drop lag.natAbs).zip
      (if 0 ≤ lag then ys.drop lag.natAbs else ys) := by
  rcases le_or_gt 0 lag with h | h
  · obtain ⟨k, rfl⟩ := Int.eq_ofNat_of_zero_le h
    rw [if_pos h, if_pos h, facing_natCast, Int.natAbs_natCast]
  · obtain ⟨k, rfl⟩ := Int.exists_eq_neg_ofNat h.le
    rw [if_neg (not_le.mpr h), if_neg (not_le.mpr h), facing_neg_natCast, Int.natAbs_neg,
      Int.natAbs_natCast]

theorem length_facing (xs : List β) (ys : List γ) (lag : ℤ) :
    (facing xs ys lag).length = min (xs.length - (-lag).toNat) (ys.length - lag.toNat) := by
  obtain ⟨k, rfl | rfl⟩ := lag.eq_nat_or_neg
  · rw [facing_natCast, List.length_zip, List.length_drop]
    omega
  · rw [facing_neg_natCast, List.length_zip, List.length_drop]
    omega

/-- Which list comes first does not matter if the lag is turned round. -/
theorem facing_swap (xs : List β) (ys : List γ) (lag : ℤ) :
    facing ys xs (-lag) = (facing xs ys lag).map Prod.swap := by
  obtain ⟨k, rfl | rfl⟩ := lag.eq_nat_or_neg
  · rw [facing_neg_natCast, facing_natCast, List.zip_swap]
  · rw [neg_neg, facing_natCast, facing_neg_natCast, List.zip_swap]

theorem facing_map {β' γ' : Type} (f : β → β') (g : γ → γ') (xs : List β) (ys : List γ)
    (lag : ℤ) : facing (xs.map f) (ys.map g) lag = (facing xs ys lag).map (Prod.map f g) := by
  obtain ⟨k, rfl | rfl⟩ := lag.eq_nat_or_neg
  · rw [facing_natCast, facing_natCast, ← List.map_drop, List.zip_map]
  · rw [facing_neg_natCast, facing_neg_natCast, ← List.map_drop, List.zip_map]

/-! ## The overlap -/

namespace Calibration

variable {α : Type}

theorem unzip_zip_take {us vs : List (Vec3 α)} :
    (us.zip vs).unzip =
      (us.take (min us.length vs.length), vs.take (min us.length vs.length)) := by
  rw [List.zip_eq_zip_take_min, List.unzip_zip]
  simp

theorem overlap_eq (xs ys : List (Vec3 α)) (lag : ℤ) :
    overlap xs ys lag =
      if (facing xs ys lag).length < leastRows then
        .error (.insufficientOverlap (facing xs ys lag).length)
      else .ok (facing xs ys lag).unzip := by
  rw [facing_eq_zip, unzip_zip_take, List.length_zip]
  rfl

theorem overlap_swap (xs ys : List (Vec3 α)) (lag : ℤ) :
    overlap ys xs (-lag) = (overlap xs ys lag).map Prod.swap := by
  rw [overlap_eq, overlap_eq, facing_swap, List.length_map]
  split
  · rfl
  · simp only [Except.map, List.unzip_eq_map, List.map_map]
    rfl

theorem overlap_map (f g : Vec3 α → Vec3 α) (xs ys : List (Vec3 α)) (lag : ℤ) :
    overlap (xs.map f) (ys.map g) lag =
      (overlap xs ys lag).map fun rows => (rows.1.map f, rows.2.map g) := by
  rw [overlap_eq, overlap_eq, facing_map, List.length_map]
  split
  · rfl
  · simp only [Except.map, List.unzip_eq_map, List.map_map]
    rfl

end Calibration

/-! ## The correlation -/

namespace Correlation

theorem sum_filterMap_range (f : ℕ → Option ℝ) (n : ℕ) :
    ((List.range n).filterMap f).sum = ∑ m ∈ Finset.range n, (f m).getD 0 := by
  induction n with
  | zero => rfl
  | succ n ih =>
    rw [List.range_succ, List.filterMap_append, List.sum_append, ih, Finset.sum_range_succ]
    cases h : f n <;> simp [h]

theorem signal_eq_itemAt? (xs : List ℝ) (i : ℤ) : signal xs i = (itemAt? xs i).getD 0 := by
  rw [signal, itemAt?]
  split
  · rw [List.getD_eq_getElem?_getD]
  · rfl

/-- The correlation at a lag is the sum of the products of the facing entries. -/
theorem direct_eq_sum_facing (a b : List ℝ) (lag : ℤ) :
    direct a b lag = ((facing a b lag).map fun p => p.1 * p.2).sum := by
  rw [direct_eq_sum_signal, facing, List.map_filterMap, sum_filterMap_range]
  refine Finset.sum_congr rfl fun m _ => ?_
  rw [signal_natCast, List.getD_eq_getElem?_getD, signal_eq_itemAt?]
  cases a[m]? <;> cases itemAt? b (m + lag) <;> simp

/-- Where any entries face each other at the lag of an index, the curve has their sum there. -/
theorem full_of_facing {a b : List ℝ} {i : ℕ} (h : facing a b (signedLag i a.length) ≠ []) :
    ∃ values, full a b = .ok values ∧
      values[i]? = some ((facing a b (signedLag i a.length)).map fun p => p.1 * p.2).sum := by
  have hlag : signedLag i a.length = i - (a.length - 1) := rfl
  have hlen := length_facing a b (signedLag i a.length)
  have hpos := List.length_pos_iff.mpr h
  obtain ⟨values, hfull, hlength, hentry⟩ := full_eq_ok (a := a) (b := b)
    (List.length_pos_iff.mp (by omega)) (List.length_pos_iff.mp (by omega))
  have hroom := (isLeast_paddedLevel (n := a.length + b.length - 1) (by omega)).1.2
  refine ⟨values, hfull, ?_⟩
  rw [hentry i (by omega), direct_eq_sum_facing]

end Correlation

namespace Calibration

open Correlation

/-- At the lag of an overlap the correlation of the magnitudes has the sum over its rows. -/
theorem full_norm_of_overlap {xs ys us vs : List (Vec3 ℝ)} {i : ℕ}
    (h : overlap xs ys (signedLag i xs.length) = .ok (us, vs)) :
    ∃ values, full (xs.map Vec3.norm) (ys.map Vec3.norm) = .ok values ∧
      values[i]? = some (List.zipWith (fun u v => u.norm * v.norm) us vs).sum := by
  rw [overlap_eq] at h
  split at h
  · cases h
  · rename_i hrows
    have hzip : facing xs ys (signedLag i xs.length) = us.zip vs := by
      have hunzip := List.zip_unzip (facing xs ys (signedLag i xs.length))
      rw [← hunzip, Except.ok.inj h]
    have hnorms := facing_map Vec3.norm Vec3.norm xs ys (signedLag i xs.length)
    have hne : facing (xs.map Vec3.norm) (ys.map Vec3.norm)
        (signedLag i (xs.map Vec3.norm).length) ≠ [] := by
      rw [← List.length_pos_iff, List.length_map, hnorms, List.length_map]
      exact (by decide : 0 < leastRows).trans_le (not_lt.mp hrows)
    obtain ⟨values, hfull, hentry⟩ := full_of_facing hne
    refine ⟨values, hfull, hentry.trans ?_⟩
    rw [List.length_map, hnorms, hzip, List.map_map, List.zip_eq_zipWith, List.map_zipWith]
    rfl

/-- **The overlap at a lag.** It has, in order, the pairs of row `m` of the first and row
`m + lag` of the second stream for all `m` for which there are both, and it fails exactly if these
are fewer than three. Turning the lag round exchanges the streams. At the lag of an index of the
correlation curve of the magnitudes, the entry of the curve is the sum over just these pairs of the
product of the magnitudes. -/
theorem overlap_spec :
    (∀ {α : Type} (xs ys : List (Vec3 α)) (lag : ℤ),
      ((facing xs ys lag).length < 3 →
        overlap xs ys lag = .error (.insufficientOverlap (facing xs ys lag).length)) ∧
      (3 ≤ (facing xs ys lag).length → overlap xs ys lag = .ok (facing xs ys lag).unzip) ∧
      overlap ys xs (-lag) = (overlap xs ys lag).map Prod.swap) ∧
    ∀ (xs ys us vs : List (Vec3 ℝ)) (i : ℕ),
      overlap xs ys (signedLag i xs.length) = .ok (us, vs) →
        ∃ values, full (xs.map Vec3.norm) (ys.map Vec3.norm) = .ok values ∧
          values[i]? = some (List.zipWith (fun u v => u.norm * v.norm) us vs).sum := by
  refine ⟨fun xs ys lag => ⟨fun h => ?_, fun h => ?_, overlap_swap xs ys lag⟩,
    fun xs ys us vs i => full_norm_of_overlap⟩
  · rw [overlap_eq, if_pos (by rwa [leastRows])]
  · rw [overlap_eq, if_neg (by rwa [leastRows, not_lt])]

/-- Three rows face the last three of four rows at the lag one. -/
theorem overlap_three_of_four :
    let xs : List (Vec3 ℝ) := [⟨1, 0, 0⟩, ⟨0, 2, 0⟩, ⟨0, 0, 3⟩]
    let ys : List (Vec3 ℝ) := [⟨5, 0, 0⟩, ⟨2, 0, 0⟩, ⟨0, 1, 0⟩, ⟨0, 0, 1⟩]
    3 ≤ (facing xs ys 1).length ∧
      overlap xs ys 1 = .ok (xs, [⟨2, 0, 0⟩, ⟨0, 1, 0⟩, ⟨0, 0, 1⟩]) ∧
      (facing xs ys 2).length < 3 ∧ overlap xs ys 2 = .error (.insufficientOverlap 2) ∧
      ∃ values, full (xs.map Vec3.norm) (ys.map Vec3.norm) = .ok values ∧
        values[3]? = some 7 := by
  intro xs ys
  have hthree : 3 ≤ (facing xs ys 1).length := by decide
  have htwo : (facing xs ys 2).length < 3 := by decide
  have hok : overlap xs ys 1 = .ok (xs, [⟨2, 0, 0⟩, ⟨0, 1, 0⟩, ⟨0, 0, 1⟩]) :=
    (overlap_spec.1 xs ys 1).2.1 hthree
  obtain ⟨values, hfull, hentry⟩ := overlap_spec.2 xs ys _ _ 3 hok
  refine ⟨hthree, hok, htwo, (overlap_spec.1 xs ys 2).1 htwo, values, hfull, hentry.trans ?_⟩
  have hnorms : (List.zipWith (fun u v : Vec3 ℝ => u.norm * v.norm) xs
      [⟨2, 0, 0⟩, ⟨0, 1, 0⟩, ⟨0, 0, 1⟩]).sum = 1 * 2 + (2 * 1 + 3 * 1) := by
    simp [xs, Vec3.norm_real, Vec3.dot_real]
  rw [hnorms]
  norm_num

end Calibration

end GyroDelay

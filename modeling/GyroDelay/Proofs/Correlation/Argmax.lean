import Mathlib.Data.List.GetD
import Mathlib.Order.WithBot
import GyroDelay.Correlation.Curve
import GyroDelay.Proofs.Exact

/-!
# The first maximum

The search for the highest entry goes by ranks in a linear order, in which the values that never
count have the lowest rank (`IsRank`). After any list it knows the first entry of the highest rank,
or that nothing has counted (`Found`, kept by one more entry: `Found.higher`). So `argmax` is the
place of the first entry of the highest rank of a list with entries (`isFirstHighest_argmax`).

In exact arithmetic every number counts, and `argmax` finds the first of the largest entries
(`isFirstMax_argmax`), which is the only place of that kind (`IsFirstMax.unique`). So a
place is found by its property alone: `argmax_eq`, and `argmax_map_mul` for a curve that
is scaled.
-/

namespace GyroDelay

/-! ## Ranks -/

section Ranks

variable {α K : Type} [LinearOrder K] {rank : α → K} {xs : List α} {x : α}

/-- Place `p` holds `top`, the first entry of the highest rank. -/
structure IsFirstHighest (rank : α → K) (xs : List α) (p : ℕ) (top : α) : Prop where
  getElem?_eq : xs[p]? = some top
  before : ∀ i x, i < p → xs[i]? = some x → rank x < rank top
  le : ∀ x ∈ xs, rank x ≤ rank top

/-- An entry above all before it is the first of the highest rank. -/
theorem isFirstHighest_concat (h : ∀ y ∈ xs, rank y < rank x) :
    IsFirstHighest rank (xs ++ [x]) xs.length x := by
  refine ⟨List.getElem?_concat_length, ?_, ?_⟩
  · intro i y hi hy
    rw [List.getElem?_append_left hi] at hy
    exact h y (List.mem_of_getElem? hy)
  · intro y hy
    rcases List.mem_append.mp hy with hy | hy
    · exact (h y hy).le
    · rw [List.mem_singleton.mp hy]

/-- An entry that is not above the first one of the highest rank leaves it in its place. -/
theorem IsFirstHighest.concat {p : ℕ} {top : α} (h : IsFirstHighest rank xs p top)
    (hx : rank x ≤ rank top) : IsFirstHighest rank (xs ++ [x]) p top := by
  obtain ⟨hp, -⟩ := List.getElem?_eq_some_iff.mp h.getElem?_eq
  refine ⟨?_, ?_, ?_⟩
  · rw [List.getElem?_append_left hp]
    exact h.getElem?_eq
  · intro i y hi hy
    rw [List.getElem?_append_left (hi.trans hp)] at hy
    exact h.before i y hi hy
  · intro y hy
    rcases List.mem_append.mp hy with hy | hy
    · exact h.le y hy
    · rw [List.mem_singleton.mp hy]
      exact hx

variable [Scalar α] [OrderBot K]

/-- Ranks that the search for the highest entry goes by. -/
structure IsRank (rank : α → K) : Prop where
  counts_iff : ∀ x, Scalar.isAboveLeast x = true ↔ ⊥ < rank x
  lt_iff : ∀ top, ⊥ < rank top → ∀ x, top < x ↔ rank top < rank x

/-- What the search knows after a list: that nothing counts, or the first entry of the highest
rank. -/
def Found (rank : α → K) (xs : List α) : Option (α × ℕ) → Prop
  | none => ∀ x ∈ xs, rank x = ⊥
  | some (top, p) => ⊥ < rank top ∧ IsFirstHighest rank xs p top

variable (hrank : IsRank rank)

include hrank

/-- One more entry. -/
theorem Found.higher {best : Option (α × ℕ)} (h : Found rank xs best) (x : α) :
    Found rank (xs ++ [x]) (higher best (x, xs.length)) := by
  cases best with
  | none =>
    rw [GyroDelay.higher]
    split
    · rename_i hcounts
      have hx := (hrank.counts_iff x).mp hcounts
      refine ⟨hx, isFirstHighest_concat fun y hy => ?_⟩
      rw [h y hy]
      exact hx
    · rename_i hnot
      have hx : rank x = ⊥ := not_bot_lt_iff.mp fun hlt => hnot ((hrank.counts_iff x).mpr hlt)
      intro y hy
      rcases List.mem_append.mp hy with hy | hy
      · exact h y hy
      · rw [List.mem_singleton.mp hy, hx]
  | some best =>
    obtain ⟨top, p⟩ := best
    obtain ⟨hcounts, hfirst⟩ := h
    rw [GyroDelay.higher]
    split
    · rename_i hlt
      have hx := (hrank.lt_iff top hcounts x).mp hlt
      exact ⟨hcounts.trans hx, isFirstHighest_concat fun y hy => (hfirst.le y hy).trans_lt hx⟩
    · rename_i hnot
      refine ⟨hcounts, hfirst.concat (not_lt.mp fun hlt => ?_)⟩
      exact hnot ((hrank.lt_iff top hcounts x).mpr hlt)

theorem found_search (xs : List α) : Found rank xs (xs.zipIdx.foldl higher none) := by
  induction xs using List.reverseRecOn with
  | nil => exact fun x hx => absurd hx List.not_mem_nil
  | append_singleton xs x ih =>
    rw [List.zipIdx_append, List.foldl_append]
    simp only [List.zipIdx_singleton, List.foldl_cons, List.foldl_nil, Nat.zero_add]
    exact ih.higher hrank x

/-- **The search.** At `argmax` a list with entries has the first one of the highest rank. -/
theorem isFirstHighest_argmax (h : xs ≠ []) :
    ∃ top, IsFirstHighest rank xs (argmax xs) top := by
  have hfound := found_search hrank xs
  rw [argmax]
  cases hbest : xs.zipIdx.foldl higher none with
  | none =>
    -- nothing counts, so the first entry has the rank of all
    rw [hbest] at hfound
    obtain ⟨y, ys, rfl⟩ := List.exists_cons_of_ne_nil h
    refine ⟨y, rfl, fun i _ hi => absurd hi (Nat.not_lt_zero i), fun x hx => ?_⟩
    rw [hfound x hx]
    exact bot_le
  | some best =>
    rw [hbest] at hfound
    exact ⟨best.1, hfound.2⟩

theorem argmax_lt_length (h : xs ≠ []) : argmax xs < xs.length := by
  obtain ⟨top, hfirst⟩ := isFirstHighest_argmax hrank h
  exact (List.getElem?_eq_some_iff.mp hfirst.getElem?_eq).1

/-- If nothing counts, the index is zero. -/
theorem argmax_eq_zero (h : ∀ x ∈ xs, rank x = ⊥) : argmax xs = 0 := by
  by_cases hxs : xs = []
  · rw [hxs]
    rfl
  · obtain ⟨top, hfirst⟩ := isFirstHighest_argmax hrank hxs
    have htop := h top (List.mem_of_getElem? hfirst.getElem?_eq)
    by_contra hpos
    have hget := List.getElem?_eq_getElem (List.length_pos_iff.mpr hxs)
    have hlt := hfirst.before 0 _ (Nat.pos_of_ne_zero hpos) hget
    rw [htop] at hlt
    exact not_lt_bot hlt

end Ranks

/-! ## Exact arithmetic -/

/-- Place `p` holds the first maximum of a list. -/
structure IsFirstMax (xs : List ℝ) (p : ℕ) : Prop where
  lt_length : p < xs.length
  before : ∀ i, i < p → xs.getD i 0 < xs.getD p 0
  le : ∀ i, i < xs.length → xs.getD i 0 ≤ xs.getD p 0

theorem IsFirstMax.unique {xs : List ℝ} {p q : ℕ} (hp : IsFirstMax xs p)
    (hq : IsFirstMax xs q) : p = q := by
  rcases Nat.lt_trichotomy p q with h | h | h
  · exact absurd (hp.le q hq.lt_length) (not_le.mpr (hq.before p h))
  · exact h
  · exact absurd (hq.le p hp.lt_length) (not_le.mpr (hp.before q h))

/-- Every real number counts, also the least one of a list. -/
theorem isRank_real : IsRank fun x : ℝ => (x : WithBot ℝ) where
  counts_iff x := iff_of_true rfl (WithBot.bot_lt_coe x)
  lt_iff _ _ _ := WithBot.coe_lt_coe.symm

/-- **The first maximum.** A list with entries has its first maximum at `argmax`. -/
theorem isFirstMax_argmax {xs : List ℝ} (h : xs ≠ []) : IsFirstMax xs (argmax xs) := by
  obtain ⟨top, hfirst⟩ := isFirstHighest_argmax isRank_real h
  obtain ⟨hp, -⟩ := List.getElem?_eq_some_iff.mp hfirst.getElem?_eq
  have htop : xs.getD (argmax xs) 0 = top := by
    rw [List.getD_eq_getElem?_getD, hfirst.getElem?_eq, Option.getD_some]
  refine ⟨hp, ?_, ?_⟩
  · intro i hi
    have hget := List.getElem?_eq_getElem (hi.trans hp)
    rw [htop, List.getD_eq_getElem?_getD, hget, Option.getD_some]
    exact WithBot.coe_lt_coe.mp (hfirst.before i _ hi hget)
  · intro i hi
    rw [htop, List.getD_eq_getElem _ _ hi]
    exact WithBot.coe_le_coe.mp (hfirst.le _ (List.getElem_mem hi))

theorem argmax_eq {xs : List ℝ} {p : ℕ} (h : IsFirstMax xs p) : argmax xs = p := by
  have hne : xs ≠ [] := List.length_pos_iff.mp (Nat.zero_lt_of_lt h.lt_length)
  exact (isFirstMax_argmax hne).unique h

/-- A positive factor does not move the first maximum. -/
theorem argmax_map_mul {c : ℝ} (hc : 0 < c) (xs : List ℝ) :
    argmax (xs.map (c * ·)) = argmax xs := by
  by_cases hxs : xs = []
  · subst hxs
    rfl
  · have hget (i : ℕ) : (xs.map (c * ·)).getD i 0 = c * xs.getD i 0 := by
      rw [← mul_zero c, List.getD_map, mul_zero]
    have h := isFirstMax_argmax hxs
    apply argmax_eq
    refine ⟨by simpa using h.lt_length, ?_, ?_⟩
    · intro i hi
      rw [hget, hget]
      exact mul_lt_mul_of_pos_left (h.before i hi) hc
    · intro i hi
      rw [hget, hget]
      exact mul_le_mul_of_nonneg_left (h.le i (by simpa using hi)) hc.le

end GyroDelay

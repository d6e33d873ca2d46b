import GyroDelay.Proofs.Correlation.Argmax
import GyroDelay.Proofs.Correlation.Direct
import GyroDelay.Proofs.Doubles.Extended
import GyroDelay.Proofs.Outcome

/-!
# The first maximum of doubles

On doubles the search for the highest entry passes over minus infinity and over what is not a
number. The ranks that it goes by are the extended real numbers that the doubles stand for
(`isRank_double`), so it finds the first of the largest numbers wherever the entries that do not
count are, and returns the index zero if there is no other entry (`argmax_double`). So a correlation
curve has its peak at one of its places also when the signals are not finite
(`Correlation.Curve.peak_lt_length`).
-/

namespace GyroDelay

namespace Doubles

/-- Whether a double takes part in a search for the highest one: a number above minus infinity. -/
def Counts (x : Float) : Prop := x.isNaN = false ∧ -1 / 0 < x

instance : DecidablePred Counts := fun x =>
  inferInstanceAs (Decidable (x.isNaN = false ∧ -1 / 0 < x))

theorem value_minusInfinity : value (-1 / 0) = .infinity .negative := rfl

theorem minusInfinity_lt_iff (x : Float) : -1 / 0 < x ↔ ⊥ < extended (value x) := by
  rw [lt_iff_extended_lt_of_left rfl, value_minusInfinity]
  rfl

theorem isNaN_of_bot_lt {x : Float} (h : ⊥ < extended (value x)) : x.isNaN = false := by
  by_contra hx
  rw [extended_of_isNaN (Bool.eq_true_of_not_eq_false hx)] at h
  exact not_lt_bot h

theorem counts_iff (x : Float) : Counts x ↔ ⊥ < extended (value x) := by
  rw [Counts, minusInfinity_lt_iff]
  exact and_iff_right_of_imp isNaN_of_bot_lt

end Doubles

open Doubles

theorem isRank_double : IsRank fun x : Float => extended (value x) where
  counts_iff x := decide_eq_true_iff.trans (minusInfinity_lt_iff x)
  lt_iff _ htop := lt_iff_extended_lt_of_left (isNaN_of_bot_lt htop)

/-- Place `p` of a list of doubles holds its first maximum `top`. Entries that are not numbers
may stand anywhere. -/
structure IsFirstMaxOfDoubles (xs : List Float) (p : ℕ) (top : Float) : Prop where
  getElem?_eq : xs[p]? = some top
  counts : Counts top
  before : ∀ i x, i < p → xs[i]? = some x → x.isNaN = true ∨ x < top
  after : ∀ i x, p < i → xs[i]? = some x → x.isNaN = true ∨ x ≤ top

/-- The first entry of the highest rank is the first maximum, if any entry counts. -/
theorem IsFirstHighest.isFirstMaxOfDoubles {xs : List Float} {p : ℕ} {top : Float}
    (h : IsFirstHighest (fun x : Float => extended (value x)) xs p top)
    (hcounts : ∃ x ∈ xs, Counts x) : IsFirstMaxOfDoubles xs p top := by
  obtain ⟨y, hy, hycounts⟩ := hcounts
  have htop : ⊥ < extended (value top) := ((counts_iff y).mp hycounts).trans_le (h.le y hy)
  have hnumber := isNaN_of_bot_lt htop
  refine ⟨h.getElem?_eq, (counts_iff top).mpr htop, ?_, ?_⟩
  · intro i x hi hx
    refine or_iff_not_imp_left.mpr fun hnot => ?_
    exact (lt_iff_extended_lt (Bool.eq_false_of_not_eq_true hnot) hnumber).mpr (h.before i x hi hx)
  · intro i x _ hx
    refine or_iff_not_imp_left.mpr fun hnot => ?_
    exact (le_iff_extended_le (Bool.eq_false_of_not_eq_true hnot) hnumber).mpr
      (h.le x (List.mem_of_getElem? hx))

/-- **The first maximum of doubles.** If an entry is a number above minus infinity, `argmax` is the
place of the first maximum, whatever else the list holds. Otherwise it is zero. So it is a place
of every list with entries. -/
theorem argmax_double (xs : List Float) :
    ((∃ x ∈ xs, Counts x) → ∃ top, IsFirstMaxOfDoubles xs (argmax xs) top) ∧
    ((¬ ∃ x ∈ xs, Counts x) → argmax xs = 0) ∧
    (xs ≠ [] → argmax xs < xs.length) := by
  refine ⟨fun hcounts => ?_, fun hnone => ?_, fun hne => ?_⟩
  · have hne : xs ≠ [] := hcounts.elim fun y hy => List.ne_nil_of_mem hy.1
    obtain ⟨top, hfirst⟩ := isFirstHighest_argmax isRank_double hne
    exact ⟨top, hfirst.isFirstMaxOfDoubles hcounts⟩
  · refine argmax_eq_zero isRank_double fun x hx => ?_
    rw [← not_bot_lt_iff, ← counts_iff]
    exact fun h => hnone ⟨x, hx, h⟩
  · exact argmax_lt_length isRank_double hne

/-- A list whose first maximum stands between entries that are not numbers, and one without an
entry that counts. -/
theorem argmax_double_with_gaps :
    let gaps : List Float := [0 / 0, -1 / 0, 1, 0 / 0, 3, 0 / 0, 3, 2]
    let empty : List Float := [0 / 0, -1 / 0, 0 / 0]
    ((∃ x ∈ gaps, Counts x) ∧ argmax gaps = 4 ∧ ∃ top, IsFirstMaxOfDoubles gaps 4 top) ∧
    ((¬ ∃ x ∈ empty, Counts x) ∧ argmax empty = 0) ∧
    (empty ≠ [] ∧ argmax empty < empty.length) := by
  intro gaps empty
  have hgaps : ∃ x ∈ gaps, Counts x := by decide +kernel
  have hempty : ¬ ∃ x ∈ empty, Counts x := by decide +kernel
  have hne : empty ≠ [] := List.cons_ne_nil _ _
  exact ⟨⟨hgaps, rfl, (argmax_double gaps).1 hgaps⟩, ⟨hempty, (argmax_double empty).2.1 hempty⟩,
    hne, (argmax_double empty).2.2 hne⟩

/-- The peak of a correlation curve of doubles is one of its places, whatever the signals hold. -/
theorem Correlation.Curve.peak_lt_length {a b : List Float} {c : Curve Float}
    (h : Curve.between a b = .ok c) : c.peak < c.values.length := by
  obtain ⟨values, hfull, rfl⟩ := map_eq_ok h
  have hlength := length_of_full hfull
  have hpos : 0 < values.length := hlength ▸ Nat.two_pow_pos _
  exact argmax_lt_length isRank_double (List.length_pos_iff.mp hpos)

end GyroDelay

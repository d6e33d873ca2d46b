import Mathlib.Algebra.BigOperators.Ring.List
import Mathlib.Order.Bounds.Basic
import Mathlib.Tactic.FieldSimp
import GyroDelay.Proofs.Exact
import GyroDelay.Statistics.Running

/-!
# Running statistics are those of the whole list

Running statistics keep no values. In exact arithmetic they are nevertheless what formulas over
the whole list give (`describes_ofList`), so they do not depend on the order in which the values
arrive (`ofList_eq_of_perm`).

What carries the induction is that the spread is the sum of the squared distances from the mean
of the values so far. One more value moves the mean, and with it every one of these distances;
their squares grow by the square of the move for each value, since the distances from a mean sum
to zero (`squaredDistances_eq_add`).
-/

namespace GyroDelay

/-- The sum of the squared distances of the values of a list from a number. -/
noncomputable def squaredDistances (xs : List ℝ) (c : ℝ) : ℝ := (xs.map fun x => (x - c) ^ 2).sum

theorem squaredDistances_nonneg (xs : List ℝ) (c : ℝ) : 0 ≤ squaredDistances xs c := by
  apply List.sum_nonneg
  intro y hy
  obtain ⟨x, -, rfl⟩ := List.mem_map.mp hy
  exact sq_nonneg _

theorem squaredDistances_concat (xs : List ℝ) (x c : ℝ) :
    squaredDistances (xs ++ [x]) c = squaredDistances xs c + (x - c) ^ 2 := by
  rw [squaredDistances, List.map_append, List.sum_append, List.map_singleton, List.sum_singleton,
    squaredDistances]

/-- Distances from another number. The middle term vanishes if `c` is the mean. -/
theorem squaredDistances_eq_add (xs : List ℝ) (c d : ℝ) :
    squaredDistances xs d =
      squaredDistances xs c + 2 * (c - d) * (xs.sum - xs.length * c) +
        xs.length * (c - d) ^ 2 := by
  induction xs with
  | nil => simp [squaredDistances]
  | cons x xs ih =>
    rw [squaredDistances] at ih ⊢
    rw [squaredDistances, List.map_cons, List.sum_cons, ih, List.map_cons, List.sum_cons,
      List.sum_cons, List.length_cons, squaredDistances]
    push_cast
    ring

/-- Whether a summary is that of the running statistics of a list. -/
structure Summary.Reports {α : Type} [Scalar α] (s : Summary α) (xs : List α) : Prop where
  count : s.count = xs.length
  least : s.least = (Running.ofList xs).least
  greatest : s.greatest = (Running.ofList xs).greatest
  mean : s.mean = (Running.ofList xs).mean
  deviation : s.deviation = Scalar.sqrt (Running.ofList xs).variance

namespace Running

open Scalar

/-- Whether statistics are those of a list, by formulas that read the list as a whole. -/
structure Describes (s : Running ℝ) (xs : List ℝ) : Prop where
  count : s.count = xs.length
  mean : s.mean = xs.sum / xs.length
  spread : s.spread = squaredDistances xs s.mean
  least : IsLeast {x | x ∈ xs} s.least
  greatest : IsGreatest {x | x ∈ xs} s.greatest

theorem describes_first (x : ℝ) : (empty.push x).Describes [x] := by
  have hpush : empty.push x = ⟨1, x, 0, x, x⟩ := by
    rw [← zero_real]
    rfl
  have hset : {y | y ∈ [x]} = {x} := by
    ext y
    exact List.mem_singleton
  rw [hpush]
  constructor
  case count => rfl
  case mean => simp
  case spread => simp [squaredDistances]
  case least => exact hset ▸ isLeast_singleton
  case greatest => exact hset ▸ isGreatest_singleton

namespace Describes

variable {s : Running ℝ} {xs : List ℝ} (h : s.Describes xs)

include h

theorem ne_nil : xs ≠ [] := List.ne_nil_of_mem h.least.1

theorem length_pos : (0 : ℝ) < xs.length := Nat.cast_pos.mpr (List.length_pos_iff.mpr h.ne_nil)

theorem push_eq (x : ℝ) : s.push x =
    { count := s.count + 1
      mean := s.mean + (x - s.mean) / (xs.length + 1)
      spread := s.spread + (x - s.mean) * (x - (s.mean + (x - s.mean) / (xs.length + 1)))
      least := min s.least x
      greatest := max s.greatest x } := by
  have hcount : s.count ≠ 0 := by
    rw [h.count]
    exact (List.length_pos_iff.mpr h.ne_nil).ne'
  rw [push, if_neg hcount]
  simp only [ofNat_real, lesser_real, greater_real, h.count, Nat.cast_add, Nat.cast_one]

theorem sum_eq : xs.sum = xs.length * s.mean := by
  rw [h.mean, mul_div_cancel₀ _ h.length_pos.ne']

/-- **One more value.** The statistics of the list with the value at its end. -/
theorem push (x : ℝ) : (s.push x).Describes (xs ++ [x]) := by
  have hn := h.length_pos
  have hmem : {y | y ∈ xs ++ [x]} = insert x {y | y ∈ xs} := by
    ext y
    simp [or_comm]
  rw [h.push_eq]
  constructor
  case count => rw [List.length_append, List.length_singleton, h.count]
  case mean =>
    rw [List.sum_append, List.sum_singleton, List.length_append, List.length_singleton, h.sum_eq]
    push_cast
    field_simp
    ring
  case spread =>
    -- the old distances are from the old mean, around which they sum to zero
    rw [squaredDistances_concat, squaredDistances_eq_add xs s.mean, h.sum_eq, h.spread]
    field_simp
    ring
  case least =>
    rw [hmem, min_comm]
    exact h.least.insert x
  case greatest =>
    rw [hmem, max_comm]
    exact h.greatest.insert x

theorem variance : s.variance =
    if xs.length < 2 then 0 else squaredDistances xs s.mean / (xs.length - 1) := by
  rw [Running.variance, h.count, h.spread, zero_real]
  split
  · rfl
  · rename_i h2
    rw [ofNat_real, Nat.cast_sub (by omega), Nat.cast_one]

theorem variance_nonneg : 0 ≤ s.variance := by
  rw [h.variance]
  split
  · exact le_rfl
  · rename_i h2
    have h1 : (1 : ℝ) ≤ xs.length := Nat.one_le_cast.mpr (by omega)
    exact div_nonneg (squaredDistances_nonneg _ _) (sub_nonneg.mpr h1)

/-- Statistics are determined by the values, whatever their order. -/
theorem eq_of_perm {t : Running ℝ} {ys : List ℝ} (ht : t.Describes ys) (hperm : ys.Perm xs) :
    t = s := by
  have hset : {y | y ∈ ys} = {x | x ∈ xs} := by
    ext y
    exact hperm.mem_iff
  have hmean : t.mean = s.mean := by rw [ht.mean, h.mean, hperm.sum_eq, hperm.length_eq]
  have hspread : t.spread = s.spread := by
    rw [ht.spread, h.spread, hmean, squaredDistances, (hperm.map _).sum_eq, squaredDistances]
  have hleast : t.least = s.least := (hset ▸ ht.least).unique h.least
  have hgreatest : t.greatest = s.greatest := (hset ▸ ht.greatest).unique h.greatest
  have hcount : t.count = s.count := by rw [ht.count, h.count, hperm.length_eq]
  cases s
  cases t
  simp only [mk.injEq]
  exact ⟨hcount, hmean, hspread, hleast, hgreatest⟩

end Describes

theorem ofList_concat {α : Type} [Scalar α] (xs : List α) (x : α) :
    ofList (xs ++ [x]) = (ofList xs).push x :=
  List.foldl_concat push empty x xs

theorem count_push {α : Type} [Scalar α] (s : Running α) (x : α) :
    (s.push x).count = s.count + 1 := by
  unfold push
  split
  · rename_i hcount
    rw [hcount]
  · rfl

theorem count_ofList {α : Type} [Scalar α] (xs : List α) : (ofList xs).count = xs.length := by
  induction xs using List.reverseRecOn with
  | nil => rfl
  | append_singleton xs x ih =>
    rw [ofList_concat, count_push, ih, List.length_append, List.length_singleton]

theorem reports_summary {α : Type} [Scalar α] (xs : List α) : (ofList xs).summary.Reports xs :=
  ⟨count_ofList xs, rfl, rfl, rfl, rfl⟩

theorem describes_ofList {xs : List ℝ} (h : xs ≠ []) : (ofList xs).Describes xs := by
  induction xs using List.reverseRecOn with
  | nil => exact absurd rfl h
  | append_singleton xs x ih =>
    rw [ofList_concat]
    rcases xs.eq_nil_or_concat with rfl | ⟨_, _, rfl⟩
    · exact describes_first x
    · exact (ih (by simp)).push x

theorem ofList_eq_of_perm {xs ys : List ℝ} (h : ys.Perm xs) : ofList ys = ofList xs := by
  rcases eq_or_ne xs [] with rfl | hne
  · rw [h.eq_nil]
  · have hne' : ys ≠ [] := fun hnil => hne (hnil ▸ h).nil_eq.symm
    exact (describes_ofList hne).eq_of_perm (describes_ofList hne') h

/-- **Running statistics.** After the values of a non-empty list they are its length, mean,
unbiased variance and extremes, as computed from the whole list, and the same for every order of
the values. -/
theorem ofList_eq_batch {xs : List ℝ} (h : xs ≠ []) :
    (ofList xs).count = xs.length ∧ (ofList xs).mean = xs.sum / xs.length ∧
      (xs.length = 1 → (ofList xs).variance = 0) ∧
      (2 ≤ xs.length → (ofList xs).variance =
        (xs.map fun x => (x - xs.sum / xs.length) ^ 2).sum / (xs.length - 1)) ∧
      0 ≤ (ofList xs).variance ∧ IsLeast {x | x ∈ xs} (ofList xs).least ∧
      IsGreatest {x | x ∈ xs} (ofList xs).greatest ∧
      ∀ ys : List ℝ, ys.Perm xs → ofList ys = ofList xs := by
  have hs : (ofList xs).Describes xs := describes_ofList h
  refine ⟨hs.count, hs.mean, ?_, ?_, hs.variance_nonneg, hs.least, hs.greatest,
    fun ys => ofList_eq_of_perm⟩
  · intro h1
    rw [hs.variance, if_pos (by omega)]
  · intro h2
    rw [hs.variance, if_neg (by omega), squaredDistances, hs.mean]

/-- Four values with the mean three, in two orders. -/
theorem ofList_four :
    ([4, 1, 4, 3] : List ℝ) ≠ [] ∧ (ofList [(4 : ℝ), 1, 4, 3]).mean = 3 ∧
      (ofList [(4 : ℝ), 1, 4, 3]).variance = 2 ∧ IsLeast {x | x ∈ [(4 : ℝ), 1, 4, 3]}
        (ofList [(4 : ℝ), 1, 4, 3]).least ∧
      ofList [(3 : ℝ), 4, 1, 4] = ofList [4, 1, 4, 3] := by
  have hne : ([4, 1, 4, 3] : List ℝ) ≠ [] := List.cons_ne_nil _ _
  have hsum : ([4, 1, 4, 3] : List ℝ).sum / ([4, 1, 4, 3] : List ℝ).length = 3 := by norm_num
  have hperm : ([3, 4, 1, 4] : List ℝ).Perm [4, 1, 4, 3] := List.reverse_perm [4, 1, 4, 3]
  obtain ⟨-, hmean, -, hvariance, -, hleast, -, horder⟩ := ofList_eq_batch hne
  refine ⟨hne, hmean.trans hsum, (hvariance (by simp)).trans ?_, hleast, horder _ hperm⟩
  rw [hsum]
  norm_num

end Running

end GyroDelay

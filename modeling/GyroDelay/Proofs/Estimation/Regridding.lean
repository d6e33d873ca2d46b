import Mathlib.Order.Bounds.Basic
import GyroDelay.Proofs.Coverage
import GyroDelay.Proofs.Estimation.Invariant

/-!
# Resampling once more

A track whose timestamps are the points of a grid (`IsUniform`) is its own track on that grid
(`onGrid_of_isUniform`): the grid has as many points as before, and at its knots a spline takes
the values that it was fitted to. So resampling with an accuracy that is not finer than the
working interval changes nothing (`OnGrid.resample_of_le`), and resampling in a row takes the
interval to the least of the accuracies and the two mean intervals
(`resample_of_resampled`).
-/

namespace GyroDelay

namespace Recording

/-- Whether the timestamps are the points of a grid. -/
def IsUniform (r : Recording ℝ) (interval : ℝ) : Prop :=
  r.times = Grid.points r.start interval r.times.length

theorem isUniform_onGrid {r : Recording ℝ} (h : r.IsTrack) {interval : ℝ} (hpos : 0 < interval) :
    (r.onGrid interval).IsUniform interval := by
  rw [IsUniform, h.start_onGrid hpos, length_onGrid]
  rfl

section Uniform

variable {r : Recording ℝ} (h : r.IsTrack) {interval : ℝ} (hu : r.IsUniform interval)

include h hu

theorem stop_of_isUniform : r.stop = r.start + (r.times.length - 1 : ℕ) * interval := by
  have h2 := h.two_le_length
  have hlast : r.times.getD (r.times.length - 1) 0 =
      (Grid.points r.start interval r.times.length).getD (r.times.length - 1) 0 :=
    congrArg (fun times : List ℝ => times.getD (r.times.length - 1) 0) hu
  rw [r.stop_eq_getD, hlast, Grid.getD_points _ _ (by omega)]

theorem meanInterval_of_isUniform : meanInterval r.times = .ok interval := by
  obtain ⟨n, hn⟩ := Nat.exists_eq_add_of_le' h.two_le_length
  rw [hu, hn]
  exact Grid.meanInterval_points _ _ n

variable (hpos : 0 < interval)

include hpos

/-- A grid that is `k` times as fine has `k` points for each interval, and the last timestamp. -/
theorem gridRows_of_isUniform_div {k : ℕ} (hk : 0 < k) :
    r.gridRows (interval / k) = (r.times.length - 1) * k + 1 := by
  have hk' : (k : ℝ) ≠ 0 := Nat.cast_ne_zero.mpr hk.ne'
  have hspan : ((r.times.length - 1 : ℕ) * interval) / (interval / k) =
      ((r.times.length - 1) * k : ℕ) := by
    rw [Nat.cast_mul]
    field_simp [hpos.ne']
  rw [gridRows, stop_of_isUniform h hu, add_sub_cancel_left, hspan, Nat.ceil_natCast]

theorem gridRows_of_isUniform : r.gridRows interval = r.times.length := by
  have h2 := h.two_le_length
  have hrows := gridRows_of_isUniform_div h hu hpos one_pos
  rw [Nat.cast_one, div_one] at hrows
  omega

/-- **A uniform track is its own track on the grid.** -/
theorem onGrid_of_isUniform : r.onGrid interval = r := by
  have htimes : r.gridTimes interval = r.times := by
    rw [gridTimes, gridRows_of_isUniform h hu hpos]
    exact hu.symm
  have hsamples : r.times.map r.sampleAt = r.samples := by
    apply List.ext_getElem?
    intro j
    by_cases hj : j < r.times.length
    · rw [h.getElem?_samples hj, List.getElem?_map, List.getElem?_eq_getElem hj,
        List.getD_eq_getElem _ _ hj, Option.map_some]
    · rw [List.getElem?_eq_none (by rwa [List.length_map, ← not_lt]),
        List.getElem?_eq_none (by rwa [h.length_samples, ← not_lt])]
  rw [onGrid, htimes, hsamples]

end Uniform

end Recording

namespace Estimator

open Scalar

/-! ## Estimators on their grids -/

/-- Whether an estimator has been resampled at an interval. -/
structure OnGrid (e : Estimator ℝ) (interval : ℝ) : Prop extends HoldsTracks e where
  interval_pos : 0 < interval
  interval_eq : e.interval = some interval
  resample_on : e.settings.resample = true
  uniform_first : e.first.IsUniform interval
  uniform_second : e.second.IsUniform interval
  length_first : e.first.times.length ≤ e.limit
  length_second : e.second.times.length ≤ e.limit

/-- A successful resampling moves both tracks onto grids with the working interval. -/
theorem HoldsTracks.onGrid_of_resample {e : Estimator ℝ} (h : e.HoldsTracks)
    (hon : e.settings.resample = true) {accuracy dt : ℝ}
    (hok : (e.resample accuracy).result = .ok dt) :
    e.workingInterval accuracy = .ok dt ∧ 0 < accuracy ∧ (e.resample accuracy).after.OnGrid dt := by
  have hspec := h.resample_spec accuracy
  generalize e.resample accuracy = attempt at hspec hok
  cases hspec with
  | refused _ => cases hok
  | fixed _ _ hoff =>
    rw [hon] at hoff
    cases hoff
  | firstTooLong _ _ _ _ => cases hok
  | secondTooLong _ _ _ _ _ => cases hok
  | moved hinterval hpos _ hfirst hsecond =>
    cases hok
    exact ⟨hinterval, hpos.1,
      { isTrack_first := h.isTrack_first.onGrid hpos.2
        isTrack_second := h.isTrack_second.onGrid hpos.2
        interval_pos := hpos.2
        interval_eq := rfl
        resample_on := hon
        uniform_first := Recording.isUniform_onGrid h.isTrack_first hpos.2
        uniform_second := Recording.isUniform_onGrid h.isTrack_second hpos.2
        length_first := (e.first.length_onGrid dt).trans_le hfirst
        length_second := (e.second.length_onGrid dt).trans_le hsecond }⟩

namespace OnGrid

variable {e : Estimator ℝ} {dt : ℝ} (h : e.OnGrid dt)

include h

theorem workingInterval_eq {accuracy : ℝ} (hpos : 0 < accuracy) :
    e.workingInterval accuracy = .ok (min accuracy dt) := by
  rw [Estimator.workingInterval_eq hpos
    (Recording.meanInterval_of_isUniform h.isTrack_first h.uniform_first)
    (Recording.meanInterval_of_isUniform h.isTrack_second h.uniform_second), min_assoc, min_self]

/-- **Resampling changes nothing** for an accuracy that is not finer than the interval. -/
theorem resample_of_le {accuracy : ℝ} (hle : dt ≤ accuracy) :
    e.resample accuracy = ⟨.ok dt, e, [.resampled dt]⟩ := by
  have hinterval : e.workingInterval accuracy = .ok dt := by
    rw [h.workingInterval_eq (h.interval_pos.trans_le hle), min_eq_right hle]
  have hfirst : ¬ e.limit < e.first.gridRows dt := by
    rw [Recording.gridRows_of_isUniform h.isTrack_first h.uniform_first h.interval_pos]
    exact not_lt.mpr h.length_first
  have hsecond : ¬ e.limit < e.second.gridRows dt := by
    rw [Recording.gridRows_of_isUniform h.isTrack_second h.uniform_second h.interval_pos]
    exact not_lt.mpr h.length_second
  rw [h.resample_eq_of_on hinterval h.interval_pos h.resample_on, if_neg hfirst, if_neg hsecond,
    Recording.onGrid_of_isUniform h.isTrack_first h.uniform_first h.interval_pos,
    Recording.onGrid_of_isUniform h.isTrack_second h.uniform_second h.interval_pos,
    ← h.interval_eq]

end OnGrid

/-! ## Resampling in a row -/

/-- Whether resampling with one accuracy after the other succeeds every time. -/
def Resamples (e : Estimator ℝ) : List ℝ → Prop
  | [] => True
  | accuracy :: rest =>
    (∃ dt, (e.resample accuracy).result = .ok dt) ∧ (e.resample accuracy).after.Resamples rest

theorem setOf_mem_cons (accuracy : ℝ) (rest : List ℝ) (bounds : Set ℝ) :
    {d | d ∈ rest ∨ d ∈ insert accuracy bounds} = {d | d ∈ accuracy :: rest ∨ d ∈ bounds} := by
  ext d
  simp only [Set.mem_ofPred_eq, Set.mem_insert_iff, List.mem_cons]
  tauto

/-- Each resampling takes the interval to the smaller one of the interval and the accuracy. -/
theorem OnGrid.resamples {e : Estimator ℝ} {dt : ℝ} (h : e.OnGrid dt) {bounds : Set ℝ}
    (hleast : IsLeast bounds dt) {accuracies : List ℝ} (hall : e.Resamples accuracies) :
    ∃ dt', (e.calls (accuracies.map .resample)).OnGrid dt' ∧
      IsLeast {d | d ∈ accuracies ∨ d ∈ bounds} dt' := by
  induction accuracies generalizing e dt bounds with
  | nil => exact ⟨dt, h, by simpa using hleast⟩
  | cons accuracy rest ih =>
    obtain ⟨⟨d, hd⟩, hrest⟩ := hall
    obtain ⟨hinterval, hpos, hgrid⟩ := h.onGrid_of_resample h.resample_on hd
    rw [h.workingInterval_eq hpos] at hinterval
    cases hinterval
    obtain ⟨dt', hgrid', hleast'⟩ := ih hgrid (hleast.insert accuracy) hrest
    rw [setOf_mem_cons] at hleast'
    exact ⟨dt', hgrid', hleast'⟩

theorem workingInterval_isLeast {e : Estimator ℝ} (h : e.HoldsTracks) {accuracy dt : ℝ}
    (hpos : 0 < accuracy) (hdt : e.workingInterval accuracy = .ok dt) :
    IsLeast (insert accuracy
      {d | meanInterval e.first.times = .ok d ∨ meanInterval e.second.times = .ok d}) dt := by
  obtain ⟨d, hd, -⟩ := h.isTrack_first.meanInterval_eq_ok
  obtain ⟨d', hd', -⟩ := h.isTrack_second.meanInterval_eq_ok
  have hset : {x | meanInterval e.first.times = .ok x ∨ meanInterval e.second.times = .ok x} =
      {d, d'} := by
    ext x
    simp [hd, hd', eq_comm]
  rw [workingInterval_eq hpos hd hd'] at hdt
  cases hdt
  rw [hset, min_assoc]
  exact isLeast_pair.insert accuracy

/-- **Resampling once more.** While resampling is switched on, successful resamplings in a row
take the working interval to the least of their accuracies and the mean intervals of the two
tracks. After a successful one, whatever was called before, another one with an accuracy that is
not finer succeeds with the same interval and leaves the estimator as it is. -/
theorem resample_of_resampled (first second : Track ℝ) (settings : Settings ℝ)
    (hon : settings.resample = true) :
    (∀ accuracies : List ℝ, accuracies ≠ [] →
      (ofTracks first second settings).Resamples accuracies →
        ∃ dt, ((ofTracks first second settings).calls (accuracies.map .resample)).interval =
            some dt ∧
          IsLeast {d | d ∈ accuracies ∨ meanInterval first.times = .ok d ∨
            meanInterval second.times = .ok d} dt) ∧
    ∀ (cs : List (Call ℝ)) (accuracy dt coarser : ℝ),
      let attempt := ((ofTracks first second settings).calls cs).resample accuracy
      attempt.result = .ok dt → dt ≤ coarser →
        attempt.after.resample coarser = ⟨.ok dt, attempt.after, [.resampled dt]⟩ := by
  have hholds := holdsTracks_ofTracks first second settings
  constructor
  · intro accuracies hne hall
    obtain ⟨accuracy, rest, rfl⟩ := List.exists_cons_of_ne_nil hne
    obtain ⟨⟨d, hd⟩, hrest⟩ := hall
    obtain ⟨hinterval, hpos, hgrid⟩ := hholds.onGrid_of_resample hon hd
    obtain ⟨dt, hgrid', hleast⟩ :=
      hgrid.resamples (workingInterval_isLeast hholds hpos hinterval) hrest
    rw [setOf_mem_cons] at hleast
    exact ⟨dt, hgrid'.interval_eq, hleast⟩
  · intro cs accuracy dt coarser attempt hok hle
    have hinvariant := (invariant_ofTracks first second settings).calls cs
    have hon' : ((ofTracks first second settings).calls cs).settings.resample = true := by
      rw [hinvariant.settings, hon]
    exact (hinvariant.onGrid_of_resample hon' hok).2.2.resample_of_le hle

/-- Two recordings of one second, with room for three points on a grid. -/
noncomputable def bothShort : Estimator ℝ := { shortAndLong with second := shortAndLong.first }

/-- The same recordings at a second a point. -/
noncomputable def bothOnGrid : Estimator ℝ :=
  { bothShort with
    first := bothShort.first.onGrid 1
    second := bothShort.second.onGrid 1
    interval := some 1 }

theorem resample_bothShort : bothShort.resample 1 = ⟨.ok 1, bothOnGrid, [.resampled 1]⟩ := by
  have hholds : bothShort.HoldsTracks :=
    holdsTracks_ofTracks (atRest 1 one_pos) (atRest 1 one_pos) shortAndLong.settings
  have hinterval : bothShort.workingInterval 1 = .ok 1 := by
    rw [workingInterval_eq one_pos (meanInterval_atRest one_pos) (meanInterval_atRest one_pos)]
    norm_num
  have hfirst : ¬ bothShort.limit < bothShort.first.gridRows 1 := by
    rw [bothShort, gridRows_first (n := 1) (by norm_num)]
    decide
  have hsecond : ¬ bothShort.limit < bothShort.second.gridRows 1 := hfirst
  rw [hholds.resample_eq_of_on hinterval one_pos rfl, if_neg hfirst, if_neg hsecond]
  rfl

/-- Resampling at a second a point and then at half a second succeeds. -/
theorem resamples_bothShort : bothShort.Resamples [1, 1 / 2] := by
  have hholds : bothShort.HoldsTracks :=
    holdsTracks_ofTracks (atRest 1 one_pos) (atRest 1 one_pos) shortAndLong.settings
  have hok : (bothShort.resample 1).result = .ok 1 := by rw [resample_bothShort]
  obtain ⟨-, -, hgrid⟩ := hholds.onGrid_of_resample rfl hok
  rw [resample_bothShort] at hgrid
  have hinterval : bothOnGrid.workingInterval (1 / 2) = .ok (1 / 2) := by
    rw [hgrid.workingInterval_eq one_half_pos, min_eq_left one_half_lt_one.le]
  have hlen : bothOnGrid.first.times.length = 2 := by
    rw [bothOnGrid, Recording.length_onGrid, bothShort, gridRows_first (n := 1) (by norm_num)]
  have hrows : bothOnGrid.first.gridRows (1 / 2) = 3 := by
    have h := Recording.gridRows_of_isUniform_div hgrid.isTrack_first hgrid.uniform_first one_pos
      two_pos
    rw [hlen] at h
    exact_mod_cast h
  have hfirst : ¬ bothOnGrid.limit < bothOnGrid.first.gridRows (1 / 2) := by
    rw [hrows]
    decide
  have hsecond : ¬ bothOnGrid.limit < bothOnGrid.second.gridRows (1 / 2) := hfirst
  rw [Resamples, Resamples, resample_bothShort,
    hgrid.resample_eq_of_on hinterval one_half_pos rfl, if_neg hfirst, if_neg hsecond]
  exact ⟨⟨1, rfl⟩, ⟨1 / 2, rfl⟩, trivial⟩

theorem resample_bothShort_again :
    bothShort.Resamples [1, 1 / 2] ∧
      (∃ dt, (bothShort.calls [.resample 1, .resample (1 / 2)]).interval = some dt ∧
        IsLeast {d | d ∈ [1, 1 / 2] ∨ meanInterval (atRest 1 one_pos).times = .ok d ∨
          meanInterval (atRest 1 one_pos).times = .ok d} dt) ∧
      (bothShort.resample 1).result = .ok 1 ∧
      (bothShort.resample 1).after.resample 5 =
        ⟨.ok 1, (bothShort.resample 1).after, [.resampled 1]⟩ := by
  have hok : (bothShort.resample 1).result = .ok 1 := by rw [resample_bothShort]
  obtain ⟨hinterval, hagain⟩ := resample_of_resampled (atRest 1 one_pos) (atRest 1 one_pos)
    { Settings.default with gridLimit := 3 } rfl
  exact ⟨resamples_bothShort, hinterval [1, 1 / 2] (by simp) resamples_bothShort, hok,
    hagain [] 1 1 5 hok (by norm_num)⟩

end Estimator

end GyroDelay

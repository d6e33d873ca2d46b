import GyroDelay.Proofs.Resampling

/-!
# What resampling does to an estimator

An estimator that holds two tracks is resampled in one of five ways (`Resampling`,
`resample_spec`): the accuracy is refused, the interval is fixed and the rows stay, the first
or the second grid is too long, or both tracks are moved onto their grids.

The tracks are moved one after the other. A failure therefore leaves everything as it was
except for the first track, which is already on its grid if the second grid is the one that
is too long (`after_of_resample_error`). That remnant counts: its spacing bounds the next
working interval from above, so a coarser accuracy need not help any more
(`retry_after_second_grid`).
-/

namespace GyroDelay.Estimator

open Scalar

/-- The largest number of points that the settings allow for a grid. -/
def limit (e : Estimator ℝ) : ℕ := e.settings.gridLimit.toNat

/-- What resampling can come to. -/
inductive Resampling (e : Estimator ℝ) (accuracy : ℝ) : Attempt ℝ ℝ → Prop
  /-- The accuracy is refused. -/
  | refused (h : accuracy ≤ 0) :
      Resampling e accuracy ⟨.error (.invalidInput (.accuracy accuracy)), e, []⟩
  /-- The interval is fixed, and that is all. -/
  | fixed {interval : ℝ} (hinterval : e.workingInterval accuracy = .ok interval)
      (hpos : 0 < accuracy ∧ 0 < interval) (hoff : e.settings.resample = false) :
      Resampling e accuracy ⟨.ok interval, { e with interval := some interval },
        [.resampled interval]⟩
  /-- The first grid is too long. -/
  | firstTooLong {interval : ℝ} (hinterval : e.workingInterval accuracy = .ok interval)
      (hpos : 0 < accuracy ∧ 0 < interval) (hon : e.settings.resample = true)
      (hfirst : e.limit < e.first.gridRows interval) :
      Resampling e accuracy ⟨.error (e.first.gridFault interval e.limit), e, []⟩
  /-- The first grid fits, the second one is too long. -/
  | secondTooLong {interval : ℝ} (hinterval : e.workingInterval accuracy = .ok interval)
      (hpos : 0 < accuracy ∧ 0 < interval) (hon : e.settings.resample = true)
      (hfirst : e.first.gridRows interval ≤ e.limit)
      (hsecond : e.limit < e.second.gridRows interval) :
      Resampling e accuracy ⟨.error (e.second.gridFault interval e.limit),
        { e with first := e.first.onGrid interval }, []⟩
  /-- Both tracks are moved onto their grids. -/
  | moved {interval : ℝ} (hinterval : e.workingInterval accuracy = .ok interval)
      (hpos : 0 < accuracy ∧ 0 < interval) (hon : e.settings.resample = true)
      (hfirst : e.first.gridRows interval ≤ e.limit)
      (hsecond : e.second.gridRows interval ≤ e.limit) :
      Resampling e accuracy ⟨.ok interval,
        { e with
          first := e.first.onGrid interval
          second := e.second.onGrid interval
          interval := some interval },
        [.resampled interval]⟩

/-- Both copies are tracks. -/
structure HoldsTracks (e : Estimator ℝ) : Prop where
  isTrack_first : e.first.IsTrack
  isTrack_second : e.second.IsTrack

theorem holdsTracks_ofTracks (first second : Track ℝ) (settings : Settings ℝ) :
    (ofTracks first second settings).HoldsTracks := ⟨first.isTrack, second.isTrack⟩

theorem workingInterval_of_nonpos (e : Estimator ℝ) {accuracy : ℝ} (h : accuracy ≤ 0) :
    e.workingInterval accuracy = .error (.invalidInput (.accuracy accuracy)) := by
  unfold workingInterval isAccuracy
  simp [h]

theorem workingInterval_eq {e : Estimator ℝ} {accuracy d d' : ℝ} (h : 0 < accuracy)
    (hfirst : meanInterval e.first.times = .ok d) (hsecond : meanInterval e.second.times = .ok d') :
    e.workingInterval accuracy = .ok (min (min accuracy d) d') := by
  have haccuracy : isAccuracy accuracy = true := by simpa [isAccuracy] using h
  unfold workingInterval
  rw [haccuracy, hfirst, hsecond]
  rfl

/-- Without resampling the interval is fixed and nothing else happens. -/
theorem resample_eq {e : Estimator ℝ} (h : e.settings.resample = false) {accuracy dt : ℝ}
    (hdt : e.workingInterval accuracy = .ok dt) :
    e.resample accuracy = ⟨.ok dt, { e with interval := some dt }, [.resampled dt]⟩ := by
  rw [Estimator.resample, hdt]
  simp [h]

namespace HoldsTracks

variable {e : Estimator ℝ} (h : e.HoldsTracks)

include h

theorem workingInterval_eq_ok {accuracy : ℝ} (hpos : 0 < accuracy) :
    ∃ interval, e.workingInterval accuracy = .ok interval ∧ 0 < interval := by
  obtain ⟨d, hd, hd0⟩ := h.isTrack_first.meanInterval_eq_ok
  obtain ⟨d', hd', hd0'⟩ := h.isTrack_second.meanInterval_eq_ok
  exact ⟨_, workingInterval_eq hpos hd hd', lt_min (lt_min hpos hd0) hd0'⟩

theorem resample_eq_of_on {accuracy interval : ℝ}
    (hinterval : e.workingInterval accuracy = .ok interval) (hpos : 0 < interval)
    (hon : e.settings.resample = true) :
    e.resample accuracy =
      if e.limit < e.first.gridRows interval then
        ⟨.error (e.first.gridFault interval e.limit), e, []⟩
      else if e.limit < e.second.gridRows interval then
        ⟨.error (e.second.gridFault interval e.limit),
          { e with first := e.first.onGrid interval }, []⟩
      else
        ⟨.ok interval,
          { e with
            first := e.first.onGrid interval
            second := e.second.onGrid interval
            interval := some interval },
          [.resampled interval]⟩ := by
  unfold resample limit
  rw [hinterval, hon]
  simp only [h.isTrack_first.resample_eq hpos, h.isTrack_second.resample_eq hpos, Bool.not_true]
  by_cases hfirst : e.settings.gridLimit.toNat < e.first.gridRows interval
  · rw [if_pos hfirst, if_pos hfirst]
    rfl
  · rw [if_neg hfirst, if_neg hfirst]
    by_cases hsecond : e.settings.gridLimit.toNat < e.second.gridRows interval
    · simp only [if_pos hsecond]
      rfl
    · simp only [if_neg hsecond]
      rfl

/-- **Resampling two tracks** comes to one of the five ways. -/
theorem resample_spec (accuracy : ℝ) : Resampling e accuracy (e.resample accuracy) := by
  rcases le_or_gt accuracy 0 with hneg | haccuracy
  · unfold resample
    rw [workingInterval_of_nonpos e hneg]
    exact .refused hneg
  · obtain ⟨interval, hinterval, hpos⟩ := h.workingInterval_eq_ok haccuracy
    cases hon : e.settings.resample with
    | false =>
      rw [resample_eq hon hinterval]
      exact .fixed hinterval ⟨haccuracy, hpos⟩ hon
    | true =>
      rw [h.resample_eq_of_on hinterval hpos hon]
      split
      · rename_i hfirst
        exact .firstTooLong hinterval ⟨haccuracy, hpos⟩ hon hfirst
      · rename_i hfirst
        split
        · rename_i hsecond
          exact .secondTooLong hinterval ⟨haccuracy, hpos⟩ hon (not_lt.mp hfirst) hsecond
        · rename_i hsecond
          exact .moved hinterval ⟨haccuracy, hpos⟩ hon (not_lt.mp hfirst) (not_lt.mp hsecond)

end HoldsTracks

/-! ## A failure on the second grid -/

/-- **A failed resampling** leaves an estimator as it was, except that the first track may be on
its grid already when the second one cannot be moved. -/
theorem after_of_resample_error {α : Type} [Scalar α] {e : Estimator α} {accuracy : α}
    {fault : Fault α}
    (h : (e.resample accuracy).result = .error fault) :
    (e.resample accuracy).after = e ∨
      ∃ interval first, e.settings.resample = true ∧
        e.workingInterval accuracy = .ok interval ∧
        e.first.resample interval e.settings.gridLimit.toNat = .ok first ∧
        e.second.resample interval e.settings.gridLimit.toNat = .error fault ∧
        (e.resample accuracy).after = { e with first := first } := by
  unfold resample at h ⊢
  cases hinterval : e.workingInterval accuracy with
  | error f =>
    left
    rfl
  | ok interval =>
    rw [hinterval] at h
    dsimp only at h ⊢
    split at h
    · cases h
    · rename_i hon
      rw [if_neg hon]
      cases hfirst : e.first.resample interval e.settings.gridLimit.toNat with
      | error f =>
        left
        rfl
      | ok first =>
        rw [hfirst] at h
        dsimp only at h ⊢
        cases hsecond : e.second.resample interval e.settings.gridLimit.toNat with
        | error f =>
          rw [hsecond] at h
          cases h
          right
          exact ⟨interval, first, by simpa using hon, rfl, hfirst, hsecond, rfl⟩
        | ok second =>
          rw [hsecond] at h
          cases h

/-- A sensor at rest, sampled at the two ends of a span of time. -/
noncomputable def atRest (span : ℝ) (h : 0 < span) : Track ℝ where
  samples := [Vec3.zero, Vec3.zero]
  times := [0, span]
  valid := by
    rw [Recording.violation?_eq_none_iff]
    exact ⟨rfl, le_refl 2, by simpa using h⟩

theorem gridRows_atRest {span : ℝ} (h : 0 < span) {interval : ℝ} {n : ℕ}
    (hn : span = n * interval) : (atRest span h).gridRows interval = n + 1 := by
  have hinterval : interval ≠ 0 := by
    rintro rfl
    rw [mul_zero] at hn
    exact h.ne' hn
  have hspan : ((atRest span h).stop - (atRest span h).start) / interval = n := by
    rw [Recording.stop, Recording.start, atRest, List.getLastD_cons, List.getLastD_cons,
      List.getLastD_nil, List.headD_cons, sub_zero, hn, mul_div_cancel_right₀ _ hinterval]
  rw [Recording.gridRows, hspan, Nat.ceil_natCast]

theorem meanInterval_atRest {span : ℝ} (h : 0 < span) :
    meanInterval (atRest span h).times = .ok span := by
  simp [atRest, meanInterval, differences, sum_real]

/-- Recordings of one and of two seconds, with room for three points on a grid. -/
noncomputable def shortAndLong : Estimator ℝ :=
  ofTracks (atRest 1 one_pos) (atRest (2 : ℕ) (Nat.cast_pos.mpr Nat.two_pos))
    { Settings.default with gridLimit := 3 }

theorem holdsTracks_shortAndLong : shortAndLong.HoldsTracks := holdsTracks_ofTracks _ _ _

theorem workingInterval_shortAndLong {accuracy : ℝ} (hpos : 0 < accuracy) (h : accuracy ≤ 1) :
    shortAndLong.workingInterval accuracy = .ok accuracy := by
  rw [workingInterval_eq hpos (meanInterval_atRest one_pos) (meanInterval_atRest two_pos),
    min_eq_left h, min_eq_left (h.trans one_le_two)]

theorem gridRows_first {interval : ℝ} {n : ℕ} (hn : 1 = n * interval) :
    shortAndLong.first.gridRows interval = n + 1 := gridRows_atRest one_pos hn

theorem gridRows_second {interval : ℝ} {n : ℕ} (hn : 2 = n * interval) :
    shortAndLong.second.gridRows interval = n + 1 := gridRows_atRest two_pos hn

/-- The first recording at half a second a point. -/
noncomputable def halfway : Estimator ℝ :=
  { shortAndLong with first := shortAndLong.first.onGrid (1 / (2 : ℕ)) }

theorem times_halfway : halfway.first.times = Grid.points 0 (1 / 2) 3 := by
  change Grid.points _ _ (shortAndLong.first.gridRows (1 / 2)) = _
  rw [gridRows_first (n := 2) (by norm_num)]
  rfl

/-- At half a second a point the second grid is too long, and the first track has moved. -/
theorem resample_shortAndLong_half :
    shortAndLong.resample (1 / 2) =
      ⟨.error (shortAndLong.second.gridFault (1 / 2) 3), halfway, []⟩ := by
  have hinterval := workingInterval_shortAndLong one_half_pos (by norm_num)
  have hfirst : ¬ shortAndLong.limit < shortAndLong.first.gridRows (1 / 2) := by
    rw [gridRows_first (n := 2) (by norm_num)]
    decide
  have hsecond : shortAndLong.limit < shortAndLong.second.gridRows (1 / 2) := by
    rw [gridRows_second (n := 4) (by norm_num)]
    decide
  rw [holdsTracks_shortAndLong.resample_eq_of_on hinterval one_half_pos rfl, if_neg hfirst,
    if_pos hsecond]
  rfl

theorem after_resample_shortAndLong :
    (shortAndLong.resample (1 / 2)).result = .error (shortAndLong.second.gridFault (1 / 2) 3) ∧
      ((shortAndLong.resample (1 / 2)).after = shortAndLong ∨
        ∃ interval first, shortAndLong.settings.resample = true ∧
          shortAndLong.workingInterval (1 / 2) = .ok interval ∧
          shortAndLong.first.resample interval 3 = .ok first ∧
          shortAndLong.second.resample interval 3 =
            .error (shortAndLong.second.gridFault (1 / 2) 3) ∧
          (shortAndLong.resample (1 / 2)).after = { shortAndLong with first := first }) := by
  have h : (shortAndLong.resample (1 / 2)).result =
      .error (shortAndLong.second.gridFault (1 / 2) 3) := by
    rw [resample_shortAndLong_half]
  exact ⟨h, after_of_resample_error h⟩

/-- At a second a point both tracks can be moved. -/
theorem resample_shortAndLong_one : (shortAndLong.resample 1).result = .ok 1 := by
  have hinterval := workingInterval_shortAndLong one_pos (le_refl 1)
  have hfirst : ¬ shortAndLong.limit < shortAndLong.first.gridRows 1 := by
    rw [gridRows_first (n := 1) (by norm_num)]
    decide
  have hsecond : ¬ shortAndLong.limit < shortAndLong.second.gridRows 1 := by
    rw [gridRows_second (n := 2) (by norm_num)]
    decide
  rw [holdsTracks_shortAndLong.resample_eq_of_on hinterval one_pos rfl, if_neg hfirst,
    if_neg hsecond]

/-- A coarser accuracy that both recordings allow is refused after the failure: the first track
is no longer what it was, and its spacing is taken for that of the recording. -/
theorem retry_after_second_grid :
    (∃ fault, (shortAndLong.resample (1 / 2)).result = .error fault) ∧
      (shortAndLong.resample (1 / 2)).after.first.times ≠ shortAndLong.first.times ∧
      (shortAndLong.resample 1).result = .ok 1 ∧
      ∃ fault, ((shortAndLong.resample (1 / 2)).after.resample 1).result = .error fault := by
  have hholds : halfway.HoldsTracks :=
    ⟨holdsTracks_shortAndLong.isTrack_first.onGrid one_half_pos,
      holdsTracks_shortAndLong.isTrack_second⟩
  rw [resample_shortAndLong_half]
  refine ⟨⟨_, rfl⟩, ?_, resample_shortAndLong_one, ?_⟩
  · intro heq
    have hlen := congrArg List.length heq
    rw [times_halfway] at hlen
    simp [Grid.points, shortAndLong, ofTracks, atRest] at hlen
  · have hmean : meanInterval halfway.first.times = .ok (1 / 2) := by
      rw [times_halfway]
      exact Grid.meanInterval_points 0 (1 / 2) 1
    have hinterval : halfway.workingInterval 1 = .ok (1 / 2) := by
      rw [workingInterval_eq one_pos hmean (meanInterval_atRest two_pos)]
      norm_num
    have hsecond : halfway.limit < halfway.second.gridRows (1 / 2) := by
      change _ < shortAndLong.second.gridRows (1 / 2)
      rw [gridRows_second (n := 4) (by norm_num)]
      decide
    rw [hholds.resample_eq_of_on hinterval one_half_pos rfl, if_pos hsecond]
    split
    · exact ⟨_, rfl⟩
    · exact ⟨_, rfl⟩

end GyroDelay.Estimator

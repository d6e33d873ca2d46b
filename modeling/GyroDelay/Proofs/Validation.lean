import GyroDelay.Json.Track
import GyroDelay.Proofs.Doubles.Order
import GyroDelay.Proofs.Recording
import GyroDelay.Proofs.Spline.Shape

/-!
# Validation

A recording of doubles is a track exactly if it has as many samples as timestamps, at least two,
all its numbers are finite and its timestamps increase strictly (`IsValid`). Otherwise the fault
names the first of these conditions that fails, and the least place where it does
(`FirstViolation`).

A recording is rejected for a timestamp that is at most its predecessor, a spline for a knot
that is not above its predecessor. Next to a value that is not a number only the second holds, so
the two agree because the timestamps are known to be finite when they are compared.
-/

namespace GyroDelay

namespace Recording

/-- Whether all coordinates of a sample are finite. -/
def IsFiniteSample (v : Vec3 Float) : Prop :=
  v.x.isFinite = true ∧ v.y.isFinite = true ∧ v.z.isFinite = true

/-- What a recording of doubles needs to be a track. -/
structure IsValid (r : Recording Float) : Prop where
  length_eq : r.samples.length = r.times.length
  two_le : 2 ≤ r.samples.length
  finite_samples : ∀ v ∈ r.samples, IsFiniteSample v
  finite_times : ∀ t ∈ r.times, t.isFinite = true
  increasing : r.times.Pairwise (· < ·)

/-- The places of the samples with a coordinate that is not finite. -/
def badSamples (samples : List (Vec3 Float)) : Set ℕ :=
  {i | ∃ v, samples[i]? = some v ∧ ¬ IsFiniteSample v}

/-- The places of the timestamps that are not finite. -/
def badTimes (times : List Float) : Set ℕ := {i | ∃ t, times[i]? = some t ∧ ¬ t.isFinite = true}

/-- The places of the timestamps that are not greater than their predecessors. -/
def disorders (times : List Float) : Set ℕ :=
  {i | ∃ k earlier later, i = k + 1 ∧ times[k]? = some earlier ∧ times[k + 1]? = some later ∧
    ¬ earlier < later}

/-- A condition of tracks that fails while those before it hold, with the field it is about. -/
inductive FirstViolation (r : Recording Float) : Violation Float → String → Prop
  | sampleCount : r.samples.length ≠ r.times.length →
      FirstViolation r (.sampleCount r.samples.length r.times.length) "samples"
  | fewSamples : r.samples.length = r.times.length → r.samples.length < 2 →
      FirstViolation r (.fewSamples r.samples.length) "samples"
  | sampleNotFinite {i : ℕ} : r.samples.length = r.times.length → 2 ≤ r.samples.length →
      IsLeast (badSamples r.samples) i →
      FirstViolation r (.sampleNotFinite i) s!"samples[{i}]"
  | timestampNotFinite {i : ℕ} : r.samples.length = r.times.length → 2 ≤ r.samples.length →
      badSamples r.samples = ∅ → IsLeast (badTimes r.times) i →
      FirstViolation r (.timestampNotFinite i) s!"timestamps[{i}]"
  | timestampOrder {k : ℕ} {earlier later : Float} : r.samples.length = r.times.length →
      2 ≤ r.samples.length → badSamples r.samples = ∅ → badTimes r.times = ∅ →
      IsLeast (disorders r.times) (k + 1) → r.times[k]? = some earlier →
      r.times[k + 1]? = some later →
      FirstViolation r (.timestampOrder (k + 1) later earlier) s!"timestamps[{k + 1}]"

/-! ## Places in a list -/

section Places

variable {β : Type} {p : β → Bool} {q : β → Prop} {xs : List β}

theorem findIdx?_eq_some_iff_isLeast (hpq : ∀ x, p x = true ↔ q x) (i : ℕ) :
    xs.findIdx? p = some i ↔ IsLeast {i : ℕ | ∃ x, xs[i]? = some x ∧ q x} i := by
  rw [List.findIdx?_eq_some_iff_getElem]
  constructor
  · rintro ⟨hi, hp, hbefore⟩
    refine ⟨⟨xs[i], List.getElem?_eq_getElem hi, (hpq _).mp hp⟩, ?_⟩
    rintro j ⟨x, hx, hq⟩
    by_contra hji
    obtain ⟨hj, rfl⟩ := List.getElem?_eq_some_iff.mp hx
    exact hbefore j (not_le.mp hji) ((hpq _).mpr hq)
  · rintro ⟨⟨x, hx, hq⟩, hleast⟩
    obtain ⟨hi, rfl⟩ := List.getElem?_eq_some_iff.mp hx
    refine ⟨hi, (hpq _).mpr hq, fun j hji hp => ?_⟩
    exact absurd (hleast ⟨xs[j], List.getElem?_eq_getElem _, (hpq _).mp hp⟩) (not_le.mpr hji)

theorem findIdx?_eq_none_iff_forall (hpq : ∀ x, p x = true ↔ q x) :
    xs.findIdx? p = none ↔ ∀ x ∈ xs, ¬ q x := by
  rw [List.findIdx?_eq_none_iff]
  refine forall₂_congr fun x _ => ?_
  rw [← hpq x, Bool.not_eq_true]

theorem places_eq_empty_iff :
    {i : ℕ | ∃ x, xs[i]? = some x ∧ q x} = ∅ ↔ ∀ x ∈ xs, ¬ q x := by
  rw [Set.eq_empty_iff_forall_notMem]
  constructor
  · rintro h x hx hq
    obtain ⟨i, hi⟩ := List.mem_iff_getElem?.mp hx
    exact h i ⟨x, hi, hq⟩
  · rintro h i ⟨x, hx, hq⟩
    exact h x (List.mem_of_getElem? hx) hq

end Places

theorem not_isFinite_iff (v : Vec3 Float) : (!v.isFinite) = true ↔ ¬ IsFiniteSample v := by
  rw [Bool.not_eq_true', Vec3.isFinite, IsFiniteSample, ← Bool.not_eq_true, Bool.and_eq_true,
    Bool.and_eq_true, and_assoc]
  rfl

theorem not_scalar_isFinite_iff (t : Float) :
    (!Scalar.isFinite t) = true ↔ ¬ t.isFinite = true := by
  rw [Bool.not_eq_true', ← Bool.not_eq_true]
  rfl

/-! ## The order of the timestamps -/

-- Why the timestamps have to be finite: next to a value that is not a number the two comparisons
-- differ.
example : disorderFrom 0 [0, 0 / 0, (1 : Float)] = none ∧
    Spline.disorder? [0, 0 / 0, (1 : Float)] = some 1 := ⟨rfl, rfl⟩

section Finite

variable {times : List Float} (hfinite : ∀ t ∈ times, t.isFinite = true)

include hfinite

theorem isChain_not_le_iff :
    (times.IsChain fun earlier later => ¬ later ≤ earlier) ↔ times.Pairwise (· < ·) := by
  let f (t : Float) : ℚ := Doubles.content (Doubles.value t)
  calc (times.IsChain fun earlier later => ¬ later ≤ earlier)
      ↔ times.IsChain fun earlier later => f earlier < f later :=
        List.IsChain.iff_of_mem_imp fun a b ha hb => by
          rw [Doubles.not_le_iff (hfinite a ha) (hfinite b hb),
            Doubles.lt_iff_content_lt (hfinite a ha) (hfinite b hb)]
    _ ↔ times.Pairwise fun earlier later => f earlier < f later := by
      rw [← List.isChain_map, List.isChain_iff_pairwise, List.pairwise_map]
    _ ↔ times.Pairwise (· < ·) := List.Pairwise.iff_of_mem fun ha hb =>
      (Doubles.lt_iff_content_lt (hfinite _ ha) (hfinite _ hb)).symm

theorem disorderFrom_zero_eq_some_iff {i : ℕ} {later earlier : Float} :
    disorderFrom 0 times = some (i, later, earlier) ↔
      ∃ k, i = k + 1 ∧ times[k]? = some earlier ∧ times[k + 1]? = some later ∧
        IsLeast (disorders times) (k + 1) := by
  have hlt {k : ℕ} {a b : Float} (ha : times[k]? = some a) (hb : times[k + 1]? = some b) :
      ¬ b ≤ a ↔ a < b :=
    Doubles.not_le_iff (hfinite a (List.mem_of_getElem? ha)) (hfinite b (List.mem_of_getElem? hb))
  rw [disorderFrom_eq_some_iff]
  refine exists_congr fun k => ?_
  rw [Nat.zero_add]
  refine and_congr_right fun _ => and_congr_right fun hearlier => and_congr_right fun hlater => ?_
  constructor
  · rintro ⟨hle, hbefore⟩
    refine ⟨⟨k, earlier, later, rfl, hearlier, hlater, ?_⟩, ?_⟩
    · rw [← hlt hearlier hlater]
      exact not_not_intro hle
    · rintro _ ⟨j, a, b, rfl, ha, hb, hab⟩
      rw [← hlt ha hb] at hab
      by_contra hjk
      exact hab (hbefore j (by omega) a b ha hb)
  · rintro ⟨⟨_, a, b, heq, ha, hb, hab⟩, hleast⟩
    cases heq
    cases hearlier.symm.trans ha
    cases hlater.symm.trans hb
    refine ⟨?_, fun j hj c d hc hd => ?_⟩
    · rw [← hlt hearlier hlater] at hab
      exact not_not.mp hab
    · rw [hlt hc hd]
      by_contra hcd
      have hle := hleast ⟨j, c, d, rfl, hc, hd, hcd⟩
      omega

end Finite

/-! ## Tracks -/

section Finding

variable {samples : List (Vec3 Float)} {times : List Float}

theorem findSample_eq_some_iff (i : ℕ) :
    samples.findIdx? (fun v => !v.isFinite) = some i ↔ IsLeast (badSamples samples) i :=
  findIdx?_eq_some_iff_isLeast not_isFinite_iff i

theorem findSample_eq_none_iff :
    samples.findIdx? (fun v => !v.isFinite) = none ↔ badSamples samples = ∅ :=
  (findIdx?_eq_none_iff_forall not_isFinite_iff).trans places_eq_empty_iff.symm

theorem findTime_eq_some_iff (i : ℕ) :
    times.findIdx? (fun t => !Scalar.isFinite t) = some i ↔ IsLeast (badTimes times) i :=
  findIdx?_eq_some_iff_isLeast not_scalar_isFinite_iff i

theorem findTime_eq_none_iff :
    times.findIdx? (fun t => !Scalar.isFinite t) = none ↔ badTimes times = ∅ :=
  (findIdx?_eq_none_iff_forall not_scalar_isFinite_iff).trans places_eq_empty_iff.symm

theorem forall_of_badTimes_eq_empty (h : badTimes times = ∅) : ∀ t ∈ times, t.isFinite = true :=
  fun t ht => not_not.mp (places_eq_empty_iff.mp h t ht)

end Finding

theorem violation?_eq_none_iff_isValid (r : Recording Float) :
    r.violation? = none ↔ r.IsValid := by
  have hsample (v : Vec3 Float) : v.isFinite = true ↔ IsFiniteSample v := by
    rw [← not_not (a := IsFiniteSample v), ← not_isFinite_iff, Bool.not_eq_true', Bool.not_eq_false]
  rw [violation?_eq_none_iff_isChain]
  simp only [hsample]
  constructor
  · rintro ⟨hlen, h2, hsamples, htimes, hchain⟩
    exact ⟨hlen, h2, hsamples, htimes, (isChain_not_le_iff htimes).mp hchain⟩
  · rintro ⟨hlen, h2, hsamples, htimes, hincreasing⟩
    exact ⟨hlen, h2, hsamples, htimes, (isChain_not_le_iff htimes).mpr hincreasing⟩

/-- The checks find the first violation. -/
theorem firstViolation_of_violation? {r : Recording Float} {v : Violation Float}
    (h : r.violation? = some v) : FirstViolation r v v.field := by
  rw [violation?] at h
  split at h
  · rename_i hlen
    cases h
    exact .sampleCount hlen
  · rename_i hlen
    rw [not_not] at hlen
    split at h
    · rename_i h2
      cases h
      exact .fewSamples hlen h2
    · rename_i h2
      rw [not_lt] at h2
      split at h
      · rename_i i hi
        cases h
        exact .sampleNotFinite hlen h2 ((findSample_eq_some_iff i).mp hi)
      · rename_i hsamples
        rw [findSample_eq_none_iff] at hsamples
        split at h
        · rename_i i hi
          cases h
          exact .timestampNotFinite hlen h2 hsamples ((findTime_eq_some_iff i).mp hi)
        · rename_i htimes
          rw [findTime_eq_none_iff] at htimes
          obtain ⟨⟨i, later, earlier⟩, hdisorder, rfl⟩ := Option.map_eq_some_iff.mp h
          obtain ⟨k, rfl, hearlier, hlater, hleast⟩ :=
            (disorderFrom_zero_eq_some_iff (forall_of_badTimes_eq_empty htimes)).mp hdisorder
          exact .timestampOrder hlen h2 hsamples htimes hleast hearlier hlater

/-- There is only one first violation, and the checks find it. -/
theorem FirstViolation.violation?_eq {r : Recording Float} {v : Violation Float} {field : String}
    (h : FirstViolation r v field) : r.violation? = some v := by
  cases h with
  | sampleCount hlen => rw [violation?, if_pos hlen]
  | fewSamples hlen h2 => rw [violation?, if_neg (not_not.mpr hlen), if_pos h2]
  | sampleNotFinite hlen h2 hi =>
    rw [violation?, if_neg (not_not.mpr hlen), if_neg (not_lt.mpr h2),
      (findSample_eq_some_iff _).mpr hi]
  | timestampNotFinite hlen h2 hsamples hi =>
    rw [violation?, if_neg (not_not.mpr hlen), if_neg (not_lt.mpr h2),
      findSample_eq_none_iff.mpr hsamples, (findTime_eq_some_iff _).mpr hi]
  | @timestampOrder k earlier later hlen h2 hsamples htimes hleast hearlier hlater =>
    have hdisorder : disorderFrom 0 r.times = some (k + 1, later, earlier) :=
      (disorderFrom_zero_eq_some_iff (forall_of_badTimes_eq_empty htimes)).mpr
        ⟨k, rfl, hearlier, hlater, hleast⟩
    rw [violation?, if_neg (not_not.mpr hlen), if_neg (not_lt.mpr h2),
      findSample_eq_none_iff.mpr hsamples, findTime_eq_none_iff.mpr htimes, hdisorder]
    rfl

end Recording

/-! ## Consumers -/

theorem Json.readTrack?_eq_some_iff {text : String} {t : Track Float} :
    readTrack? text = some t ↔
      (parse? text.toList).bind (fun j => recordingOf? (toTree j)) = some t.toRecording := by
  have hoption (r : Recording Float) : r.toTrack.toOption = some t ↔ t.toRecording = r := by
    rw [← Recording.toTrack_eq_ok_iff]
    cases r.toTrack with
    | ok t' => simp [Except.toOption]
    | error fault => simp [Except.toOption]
  change ((parse? text.toList).bind fun j => (recordingOf? (toTree j)).bind fun r =>
    r.toTrack.toOption) = some t ↔ _
  rw [← Option.bind_assoc, Option.bind_eq_some_iff]
  simp only [hoption]
  constructor
  · rintro ⟨r, hr, rfl⟩
    exact hr
  · exact fun h => ⟨_, h, rfl⟩

/-- The knots of a spline may be the timestamps of any track. -/
theorem Spline.fit_track (t : Track Float) {values : List Float}
    (h : t.times.length = values.length) :
    Natural.fit t.times values = .ok (Natural.through t.times values) := by
  have htrack := t.toRecording.violation?_eq_none_iff_isValid.mp t.valid
  have h2 := htrack.two_le
  have hlen := htrack.length_eq
  rw [Natural.fit, if_neg (not_not.mpr h), if_neg (by omega),
    disorder?_eq_none_iff_isChain.mpr htrack.increasing.isChain]

/-- **Tracks are exactly the valid recordings, for everything that reads or uses them.** -/
theorem Recording.toTrack_exact :
    (∀ r : Recording Float, (∃ t, r.toTrack = .ok t ∧ t.toRecording = r) ↔ r.IsValid) ∧
      (∀ (r : Recording Float) (fault : Fault Float),
        r.toTrack = .error fault ↔ ∃ v, fault = .invalidInput v ∧ FirstViolation r v v.field) ∧
      (∀ (text : String) (r : Recording Float),
        (∃ t, Json.readTrack? text = some t ∧ t.toRecording = r) ↔
          (Json.parse? text.toList).bind (fun j => Json.recordingOf? (Json.toTree j)) = some r ∧
            r.IsValid) ∧
      (∀ t : Track Float, t.toRecording.toTrack = .ok t) ∧
      ∀ (t : Track Float) (axis : Vec3 Float → Float),
        ∃ s, Spline.Natural.fit t.times (t.samples.map axis) = .ok s := by
  refine ⟨fun r => ?_, fun r fault => ?_, fun text r => ?_, fun t => toTrack_eq_ok_iff.mpr rfl,
    fun t axis => ⟨_, Spline.fit_track t ?_⟩⟩
  · simp only [toTrack_eq_ok_iff, and_self]
    rw [exists_track_iff, violation?_eq_none_iff_isValid]
  · rw [toTrack_eq_error_iff]
    refine exists_congr fun v => ?_
    rw [and_comm]
    exact and_congr_right fun _ =>
      ⟨firstViolation_of_violation?, FirstViolation.violation?_eq⟩
  · rw [← violation?_eq_none_iff_isValid, ← exists_track_iff]
    simp only [Json.readTrack?_eq_some_iff]
    constructor
    · rintro ⟨t, h, rfl⟩
      exact ⟨h, t, rfl⟩
    · rintro ⟨h, t, rfl⟩
      exact ⟨t, h, rfl⟩
  · rw [List.length_map]
    exact (t.toRecording.violation?_eq_none_iff_isValid.mp t.valid).length_eq.symm

end GyroDelay

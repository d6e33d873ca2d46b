import GyroDelay.Proofs.Csv.Grammar
import GyroDelay.Proofs.Resampling
import GyroDelay.Proofs.Rounding
import GyroDelay.Proofs.Text

/-!
# Recordings written and read again

A recording is written as one line a sample. When the texts of its numbers read back, the
text is parsed to the same samples, and each timestamp to the number that its text stands for
(`parse_render`). In seconds that is the timestamp itself. In the other units timestamps are
written as whole numbers: rounding moves a timestamp by half a unit at most, keeps timestamps
in order that are a unit apart, and changes nothing the second time.
-/

namespace GyroDelay.Recording

open Decimal (IsPlain)

/-! ## Characters -/

/-- The characters of a line with a sample. -/
def IsRowChar (c : Char) : Prop := IsPlain c ∨ c = ','

theorem IsRowChar.bounds {c : Char} (h : IsRowChar c) : 44 ≤ c.toNat ∧ c.toNat ≤ 57 := by
  obtain hplain | rfl := h
  · have := IsPlain.bounds hplain
    omega
  · decide

theorem isBlank_of_isRowChar {c : Char} (h : IsRowChar c) : Text.isBlank c = false := by
  have hbounds := h.bounds
  simp only [Text.isBlank, Text.blankRanges, List.any_cons, List.any_nil, Bool.or_false,
    Bool.or_eq_false_iff, Bool.and_eq_false_imp, decide_eq_true_eq, decide_eq_false_iff_not,
    not_le]
  omega

theorem not_mem_of_isRowChar {cs : List Char} (h : ∀ c ∈ cs, IsRowChar c) {d : Char}
    (hd : d.toNat < 44) : d ∉ cs := by
  intro hmem
  have := (h d hmem).bounds
  omega

theorem comma_not_mem {cs : List Char} (h : ∀ c ∈ cs, IsPlain c) : ',' ∉ cs := by
  intro hmem
  exact absurd (h ',' hmem).bounds (by decide)

section Rows

variable {α : Type} [Scalar α] [NumberText α]

/-- The number reads back from its text. -/
def ReadsBack (x : α) : Prop := NumberText.read? (NumberText.display x) = some x

/-- The text of the number can stand in a field, and reads back. -/
structure IsWritten (x : α) : Prop where
  plain : ∀ c ∈ (NumberText.display x).toList, IsPlain c
  reads : ReadsBack x
  finite : Scalar.isFinite x = true

/-- The text of the timestamp `t` can stand in a field, and reads as `t'`. -/
structure IsRestored (unit : TimeUnit) (t t' : α) : Prop where
  plain : ∀ c ∈ (timeText unit t).toList, IsPlain c
  reads : ∃ s, readTime (timeText unit t).toList = .ok s ∧ t' = s * unit.factor

theorem IsWritten.fieldReads {x : α} (h : IsWritten x) :
    FieldReads (NumberText.display x).toList x := by
  rw [FieldReads, String.ofList_toList]
  exact ⟨h.reads, h.finite⟩

/-- The line of a sample without its end. -/
def rowText (unit : TimeUnit) (v : Vec3 α) (t : α) : List Char :=
  (NumberText.display v.x).toList ++ ',' :: ((NumberText.display v.y).toList ++ ',' ::
    ((NumberText.display v.z).toList ++ ',' :: (timeText unit t).toList))

theorem toList_renderSample (unit : TimeUnit) (v : Vec3 α) (t : α) :
    (renderSample unit v t).toList = rowText unit v t ++ ['\n'] := by
  simp [renderSample, rowText]

theorem toList_render (unit : TimeUnit) (r : Recording α) :
    (render unit r).toList =
      (List.zipWith (rowText unit) r.samples r.times).flatMap fun line => line ++ ['\n'] := by
  rw [render, String.toList_join, List.flatMap_def, List.flatMap_def, List.map_zipWith,
    List.map_zipWith]
  congr 2
  funext v t
  exact toList_renderSample unit v t

variable {unit : TimeUnit} {v : Vec3 α} {t t' : α}

theorem isRowChar_rowText (hx : IsWritten v.x) (hy : IsWritten v.y) (hz : IsWritten v.z)
    (ht : IsRestored unit t t') : ∀ c ∈ rowText unit v t, IsRowChar c := by
  intro c hc
  simp only [rowText, List.mem_append, List.mem_cons] at hc
  rcases hc with hc | rfl | hc | rfl | hc | rfl | hc
  · exact .inl (hx.plain c hc)
  · exact .inr rfl
  · exact .inl (hy.plain c hc)
  · exact .inr rfl
  · exact .inl (hz.plain c hc)
  · exact .inr rfl
  · exact .inl (ht.plain c hc)

theorem trim_of_isPlain {cs : List Char} (h : ∀ c ∈ cs, IsPlain c) : Text.trim cs = cs :=
  Text.trim_eq_self fun c hc => isBlank_of_isRowChar (.inl (h c hc))

theorem fields_rowText (hx : IsWritten v.x) (hy : IsWritten v.y) (hz : IsWritten v.z)
    (ht : IsRestored unit t t') :
    (Text.fields ',' (rowText unit v t)).map Text.trim =
      [(NumberText.display v.x).toList, (NumberText.display v.y).toList,
        (NumberText.display v.z).toList, (timeText unit t).toList] := by
  rw [rowText, Text.fields_append (comma_not_mem hx.plain),
    Text.fields_append (comma_not_mem hy.plain), Text.fields_append (comma_not_mem hz.plain),
    Text.fields_eq_singleton (comma_not_mem ht.plain)]
  simp only [List.map_cons, List.map_nil, trim_of_isPlain hx.plain, trim_of_isPlain hy.plain,
    trim_of_isPlain hz.plain, trim_of_isPlain ht.plain]

theorem readSample_rowText (hx : IsWritten v.x) (hy : IsWritten v.y) (hz : IsWritten v.z)
    (ht : IsRestored unit t t') : readSample unit (rowText unit v t) = .ok (v, t') := by
  obtain ⟨s, hs, hvalue⟩ := ht.reads
  exact readSample_eq_ok_iff.mpr ⟨_, _, _, _, s, fields_rowText hx hy hz ht, hx.fieldReads,
    hy.fieldReads, hz.fieldReads, hs, hvalue⟩

theorem isSkipped_eq_false {cs : List Char} (hne : cs ≠ []) (h : '#' ∉ cs) :
    isSkipped cs = false := by
  cases cs with
  | nil => contradiction
  | cons c cs =>
    have hc : c ≠ '#' := (List.ne_of_not_mem_cons h).symm
    rw [isSkipped, decide_eq_false hc]

/-- A sample is read from its line; a line of the text is neither blank nor a comment. -/
theorem readLines_cons_rowText (hx : IsWritten v.x) (hy : IsWritten v.y) (hz : IsWritten v.z)
    (ht : IsRestored unit t t') (n : ℕ) (ls : List (List Char)) :
    readLines unit n (rowText unit v t :: ls) =
      (readLines unit (n + 1) ls).map ((v, t') :: ·) := by
  have hchars := isRowChar_rowText hx hy hz ht
  have htrim : Text.trim (rowText unit v t) = rowText unit v t :=
    Text.trim_eq_self fun c hc => isBlank_of_isRowChar (hchars c hc)
  have hne : rowText unit v t ≠ [] := by simp [rowText]
  have hskip := isSkipped_eq_false hne (not_mem_of_isRowChar hchars (by decide))
  rw [readLines, htrim, hskip, readSample_rowText hx hy hz ht]
  rfl

/-! ## Recordings -/

/-- The texts of all coordinates can stand in fields, and read back. -/
def IsWrittenSample (v : Vec3 α) : Prop := IsWritten v.x ∧ IsWritten v.y ∧ IsWritten v.z

theorem readLines_rowTexts {samples : List (Vec3 α)} {times times' : List α}
    (hlen : samples.length = times.length) (hsamples : ∀ v ∈ samples, IsWrittenSample v)
    (htimes : List.Forall₂ (IsRestored unit) times times') (n : ℕ) :
    readLines unit n (List.zipWith (rowText unit) samples times) = .ok (samples.zip times') := by
  induction htimes generalizing samples n with
  | nil =>
    obtain rfl := List.length_eq_zero_iff.mp hlen
    rfl
  | cons ht _ ih =>
    cases samples with
    | nil => cases hlen
    | cons v samples =>
      obtain ⟨⟨hx, hy, hz⟩, hrest⟩ := List.forall_mem_cons.mp hsamples
      rw [List.zipWith_cons_cons, readLines_cons_rowText hx hy hz ht,
        ih (Nat.succ_inj.mp hlen) hrest (n + 1)]
      rfl

theorem rowText_lines {samples : List (Vec3 α)} {times times' : List α}
    (hsamples : ∀ v ∈ samples, IsWrittenSample v)
    (htimes : List.Forall₂ (IsRestored unit) times times') :
    ∀ line ∈ List.zipWith (rowText unit) samples times, '\n' ∉ line ∧ '\r' ∉ line := by
  induction htimes generalizing samples with
  | nil => simp
  | cons ht _ ih =>
    cases samples with
    | nil => simp
    | cons v samples =>
      obtain ⟨⟨hx, hy, hz⟩, hrest⟩ := List.forall_mem_cons.mp hsamples
      have hchars := isRowChar_rowText hx hy hz ht
      exact List.forall_mem_cons.mpr ⟨⟨not_mem_of_isRowChar hchars (by decide),
        not_mem_of_isRowChar hchars (by decide)⟩, ih hrest⟩

/-- A recording is read from its text, with each timestamp as its own text reads. -/
theorem parse_render {r : Recording α} {times' : List α}
    (hlen : r.samples.length = r.times.length) (hsamples : ∀ v ∈ r.samples, IsWrittenSample v)
    (htimes : List.Forall₂ (IsRestored unit) r.times times') :
    parse unit (render unit r).toList = .ok ⟨r.samples, times'⟩ := by
  have hlen' : r.samples.length = times'.length := hlen.trans htimes.length_eq
  rw [parse, toList_render, Text.lines_flatMap (rowText_lines hsamples htimes),
    readLines_rowTexts hlen hsamples htimes]
  have hfst : (r.samples.zip times').map (·.1) = r.samples := List.map_fst_zip hlen'.le
  have hsnd : (r.samples.zip times').map (·.2) = times' := List.map_snd_zip hlen'.ge
  rw [Except.map, hfst, hsnd]

theorem exists_forall₂ {β γ : Type} {R : β → γ → Prop} {xs : List β}
    (h : ∀ x ∈ xs, ∃ y, R x y) : ∃ ys, List.Forall₂ R xs ys := by
  induction xs with
  | nil => exact ⟨[], .nil⟩
  | cons x xs ih =>
    obtain ⟨⟨y, hy⟩, hrest⟩ := List.forall_mem_cons.mp h
    obtain ⟨ys, hys⟩ := ih hrest
    exact ⟨y :: ys, .cons hy hys⟩

/-! ## Whole numbers of units -/

theorem timeText_of_ne_seconds (h : unit ≠ .seconds) (t : α) :
    timeText unit t = toString (Scalar.roundInt (t / unit.factor)) := by
  cases unit with
  | seconds => contradiction
  | _ => rfl

/-- The timestamp that its number of units stands for. -/
def roundToUnit (unit : TimeUnit) (t : α) : α :=
  Scalar.ofInt (Scalar.roundInt (t / unit.factor)) * unit.factor

theorem isRestored_roundToUnit (h : unit ≠ .seconds)
    (ht : isSigned 64 (Scalar.roundInt (t / unit.factor)) = true) :
    IsRestored unit t (roundToUnit unit t) := by
  refine ⟨?_, Scalar.ofInt (Scalar.roundInt (t / unit.factor)), ?_, rfl⟩
  · rw [timeText_of_ne_seconds h]
    exact Decimal.isPlain_toString_int _
  · rw [timeText_of_ne_seconds h, readTime, String.ofList_toList, Decimal.readInt64?_toString ht]

theorem parse_render_of_ne_seconds {r : Recording α} (h : unit ≠ .seconds)
    (hlen : r.samples.length = r.times.length) (hsamples : ∀ v ∈ r.samples, IsWrittenSample v)
    (hrange : ∀ t : α, isSigned 64 (Scalar.roundInt (t / unit.factor)) = true) :
    parse unit (render unit r).toList = .ok ⟨r.samples, r.times.map (roundToUnit unit)⟩ := by
  refine parse_render hlen hsamples ?_
  rw [List.forall₂_map_right_iff, List.forall₂_same]
  exact fun t _ => isRestored_roundToUnit h (hrange t)

end Rows

/-! ## Seconds -/

/-- The same number, but zero in place of minus zero. -/
def DropsZeroSign (t t' : Float) : Prop := t' = t ∨ t = -0 ∧ t' = 0

theorem isWritten_of_readsBack {x : Float} (hfinite : x.isFinite = true) (h : ReadsBack x) :
    IsWritten x :=
  ⟨Decimal.isPlain_display hfinite, h, hfinite⟩

theorem isFinite_of_dropsZeroSign {t t' : Float} (h : DropsZeroSign t t')
    (ht : t.isFinite = true) : t'.isFinite = true := by
  obtain rfl | ⟨-, rfl⟩ := h
  · exact ht
  · exact Doubles.isFinite_ofNat (by decide)

theorem isFinite_of_forall₂_dropsZeroSign {times times' : List Float}
    (h : List.Forall₂ DropsZeroSign times times') (htimes : ∀ t ∈ times, t.isFinite = true) :
    ∀ t' ∈ times', t'.isFinite = true := by
  induction h with
  | nil => exact htimes
  | cons hdrop _ ih =>
    obtain ⟨ht, hrest⟩ := List.forall_mem_cons.mp htimes
    exact List.forall_mem_cons.mpr ⟨isFinite_of_dropsZeroSign hdrop ht, ih hrest⟩

theorem exists_isRestored_seconds {t : Float} (h : IsWritten t) :
    ∃ t', IsRestored .seconds t t' ∧ DropsZeroSign t t' := by
  obtain ⟨s, hs⟩ := exists_readTime h.fieldReads
  obtain ⟨t₀, ⟨hread, -⟩, hvalue⟩ := readTime_eq_ok hs
  rw [String.ofList_toList, h.reads] at hread
  obtain rfl : t = t₀ := Option.some_inj.mp hread
  have hunit : s * (TimeUnit.seconds.factor : Float) = s :=
    Doubles.mul_one_eq (isFinite_of_dropsZeroSign hvalue h.finite)
  exact ⟨s, ⟨h.plain, s, hs, hunit.symm⟩, hvalue⟩

/-- Zeros compare alike whatever their signs. -/
theorem le_iff_of_dropsZeroSign {a a' b b' : Float} (ha : DropsZeroSign a a')
    (hb : DropsZeroSign b b') : a' ≤ b' ↔ a ≤ b := by
  have hleft : a' ≤ b' ↔ a ≤ b' := by
    obtain rfl | ⟨rfl, rfl⟩ := ha
    · rfl
    · exact Doubles.zero_le_iff b'
  have hright : a ≤ b' ↔ a ≤ b := by
    obtain rfl | ⟨rfl, rfl⟩ := hb
    · rfl
    · exact Doubles.le_zero_iff a
  exact hleft.trans hright

theorem isChain_of_forall₂ {β γ : Type} {D : β → γ → Prop} {R : β → β → Prop}
    {S : γ → γ → Prop} {xs : List β} {ys : List γ}
    (h : List.Forall₂ D xs ys) (hstep : ∀ a a' b b', D a a' → D b b' → R a b → S a' b')
    (hchain : xs.IsChain R) : ys.IsChain S := by
  induction h with
  | nil => exact .nil
  | @cons a a' xs ys ha hrest ih =>
    cases hrest with
    | nil => exact .singleton _
    | cons hb _ =>
      obtain ⟨hab, htail⟩ := List.isChain_cons_cons.mp hchain
      exact List.isChain_cons_cons.mpr ⟨hstep _ _ _ _ ha hb hab, ih htail⟩

theorem violation?_of_dropsZeroSign {samples : List (Vec3 Float)} {times times' : List Float}
    (h : List.Forall₂ DropsZeroSign times times')
    (hvalid : violation? ⟨samples, times⟩ = none) : violation? ⟨samples, times'⟩ = none := by
  rw [violation?_eq_none_iff_isChain] at hvalid ⊢
  obtain ⟨hlen, h2, hsamples, htimes, hchain⟩ := hvalid
  refine ⟨hlen.trans h.length_eq, h2, hsamples, ?_, ?_⟩
  · exact isFinite_of_forall₂_dropsZeroSign h htimes
  · refine isChain_of_forall₂ h ?_ hchain
    intro a a' b b' ha hb hlt
    rwa [le_iff_of_dropsZeroSign hb ha]

theorem eq_of_dropsZeroSign {times times' : List Float}
    (h : List.Forall₂ DropsZeroSign times times') (hzero : ∀ t ∈ times, t ≠ -0) :
    times' = times := by
  induction h with
  | nil => rfl
  | cons hdrop _ ih =>
    obtain ⟨ht, hrest⟩ := List.forall_mem_cons.mp hzero
    obtain rfl | ⟨hneg, -⟩ := hdrop
    · rw [ih hrest]
    · exact absurd hneg ht

/-- In seconds a recording reads back, except that minus zero may have become zero. -/
theorem parse_render_seconds {r : Recording Float}
    (hlen : r.samples.length = r.times.length) (hsamples : ∀ v ∈ r.samples, IsWrittenSample v)
    (htimes : ∀ t ∈ r.times, IsWritten t) :
    ∃ times', parse .seconds (render .seconds r).toList = .ok ⟨r.samples, times'⟩ ∧
      List.Forall₂ DropsZeroSign r.times times' := by
  obtain ⟨times', h⟩ := exists_forall₂ fun t ht => exists_isRestored_seconds (htimes t ht)
  exact ⟨times', parse_render hlen hsamples (h.imp fun _ _ => And.left),
    h.imp fun _ _ => And.right⟩

/-! ## Exact conversions -/

theorem render_roundToUnit {unit : TimeUnit} [NumberText ℝ] (h : unit ≠ .seconds)
    (r : Recording ℝ) :
    render unit ⟨r.samples, r.times.map (roundToUnit unit)⟩ = render unit r := by
  have htext (v : Vec3 ℝ) (t : ℝ) :
      renderSample unit v (roundToUnit unit t) = renderSample unit v t := by
    rw [renderSample, renderSample, timeText_of_ne_seconds h, timeText_of_ne_seconds h,
      roundToUnit, Scalar.ofInt_real, roundInt_mul_div (isSigned_roundInt_real _)]
  rw [render, render, List.zipWith_map_right]
  congr 2
  funext v t
  exact htext v t

theorem roundToUnit_real {unit : TimeUnit} {t : ℝ} (hlow : -2 ^ 63 ≤ t / unit.factor)
    (hhigh : t / unit.factor ≤ 2 ^ 63 - 1) :
    roundToUnit unit t = nearestInt (t / unit.factor) * unit.factor := by
  rw [roundToUnit, roundInt_eq_nearestInt hlow hhigh, Scalar.ofInt_real]

theorem abs_nearestInt_mul_sub_le (unit : TimeUnit) (t : ℝ) :
    |nearestInt (t / unit.factor) * unit.factor - t| ≤ unit.factor / 2 := by
  have hf := factor_pos unit
  have hsplit : nearestInt (t / unit.factor) * unit.factor - t =
      (nearestInt (t / unit.factor) - t / unit.factor) * unit.factor := by
    field_simp
  rw [hsplit, abs_mul, abs_of_pos hf]
  calc _ ≤ 1 / 2 * unit.factor :=
        mul_le_mul_of_nonneg_right (abs_nearestInt_sub_le _) hf.le
    _ = unit.factor / 2 := by ring

/-- Timestamps that are a unit apart stay in order. -/
theorem roundToUnit_lt {unit : TimeUnit} {a b : ℝ} (h : unit.factor ≤ b - a) :
    (nearestInt (a / unit.factor) * unit.factor : ℝ) <
      nearestInt (b / unit.factor) * unit.factor := by
  have hf := factor_pos unit
  have hgap : a / unit.factor + 1 ≤ b / unit.factor := by
    rw [div_add_one hf.ne', div_le_div_iff_of_pos_right hf]
    linarith
  have hlt := nearestInt_lt_nearestInt hgap
  exact mul_lt_mul_of_pos_right (Int.cast_lt.mpr hlt) hf

/-- Rounding keeps a track whose timestamps are a unit apart. -/
theorem isTrack_roundToUnit {unit : TimeUnit} {r : Recording ℝ} (h : r.IsTrack)
    (hrange : ∀ t ∈ r.times, -2 ^ 63 ≤ t / unit.factor ∧ t / unit.factor ≤ 2 ^ 63 - 1)
    (hgaps : r.times.IsChain fun a b => unit.factor ≤ b - a) :
    IsTrack ⟨r.samples, r.times.map (roundToUnit unit)⟩ := by
  have hmap : r.times.map (roundToUnit unit) =
      r.times.map fun t => (nearestInt (t / unit.factor) * unit.factor : ℝ) := by
    refine List.map_congr_left fun t ht => ?_
    exact roundToUnit_real (hrange t ht).1 (hrange t ht).2
  refine ⟨?_, ?_, ?_⟩
  · rw [List.length_map, h.length_samples]
  · rw [List.length_map]
    exact h.two_le_length
  · rw [hmap, ← List.isChain_iff_pairwise, List.isChain_map]
    exact hgaps.imp fun _ _ => roundToUnit_lt

/-! ## The round trip -/

/-- What comes back of a recording that is written and read: on doubles as far as their own
arithmetic goes, and in units other than seconds in exact arithmetic. -/
theorem parse_render_spec :
    (∀ (unit : TimeUnit) (r : Recording Float), r.samples.length = r.times.length →
      (∀ v ∈ r.samples, v.isFinite = true) → (∀ t ∈ r.times, t.isFinite = true) →
      (∀ v ∈ r.samples, ReadsBack v.x ∧ ReadsBack v.y ∧ ReadsBack v.z) →
      (∀ t ∈ r.times, ReadsBack t) →
      ∃ times', parse unit (render unit r).toList = .ok ⟨r.samples, times'⟩ ∧
        (unit = .seconds → List.Forall₂ DropsZeroSign r.times times' ∧
          (r.violation? = none → violation? ⟨r.samples, times'⟩ = none) ∧
          ((∀ t ∈ r.times, t ≠ -0) →
            times' = r.times ∧ render unit ⟨r.samples, times'⟩ = render unit r)) ∧
        (unit ≠ .seconds → times' = r.times.map (roundToUnit unit))) ∧
    ∀ [NumberText ℝ] (unit : TimeUnit) (r : Recording ℝ), unit ≠ .seconds →
      r.samples.length = r.times.length → (∀ v ∈ r.samples, IsWrittenSample v) →
      ∃ times', parse unit (render unit r).toList = .ok ⟨r.samples, times'⟩ ∧
        render unit ⟨r.samples, times'⟩ = render unit r ∧
        ((∀ t ∈ r.times, -2 ^ 63 ≤ t / unit.factor ∧ t / unit.factor ≤ 2 ^ 63 - 1) →
          List.Forall₂ (fun t t' : ℝ => t' = nearestInt (t / unit.factor) * unit.factor ∧
            |t' - t| ≤ unit.factor / 2) r.times times' ∧
          (r.violation? = none → (r.times.IsChain fun a b => unit.factor ≤ b - a) →
            violation? ⟨r.samples, times'⟩ = none)) := by
  refine ⟨?_, ?_⟩
  · intro unit r hlen hfinite htimes hreads htimesRead
    have hsamples : ∀ v ∈ r.samples, IsWrittenSample v := by
      intro v hv
      have hcoordinates := hfinite v hv
      rw [Vec3.isFinite, Bool.and_eq_true, Bool.and_eq_true] at hcoordinates
      obtain ⟨⟨hx, hy⟩, hz⟩ := hcoordinates
      obtain ⟨hxRead, hyRead, hzRead⟩ := hreads v hv
      exact ⟨isWritten_of_readsBack hx hxRead, isWritten_of_readsBack hy hyRead,
        isWritten_of_readsBack hz hzRead⟩
    by_cases hunit : unit = .seconds
    · subst hunit
      obtain ⟨times', hparse, hdrop⟩ := parse_render_seconds hlen hsamples
        fun t ht => isWritten_of_readsBack (htimes t ht) (htimesRead t ht)
      refine ⟨times', hparse, fun _ => ⟨hdrop, violation?_of_dropsZeroSign hdrop, ?_⟩,
        fun h => absurd rfl h⟩
      intro hzero
      have heq := eq_of_dropsZeroSign hdrop hzero
      exact ⟨heq, by rw [heq]⟩
    · exact ⟨_, parse_render_of_ne_seconds hunit hlen hsamples
        fun _ => isSigned_roundInt_float _, fun h => absurd h hunit, fun _ => rfl⟩
  · intro _ unit r hunit hlen hsamples
    refine ⟨_, parse_render_of_ne_seconds hunit hlen hsamples fun _ => isSigned_roundInt_real _,
      render_roundToUnit hunit r, ?_⟩
    intro hrange
    refine ⟨?_, ?_⟩
    · rw [List.forall₂_map_right_iff, List.forall₂_same]
      intro t ht
      rw [roundToUnit_real (hrange t ht).1 (hrange t ht).2]
      exact ⟨rfl, abs_nearestInt_mul_sub_le unit t⟩
    · intro hvalid hgaps
      exact (isTrack_iff _).mp
        (isTrack_roundToUnit ((isTrack_iff r).mpr hvalid) hrange hgaps)

/-- The texts of zero and one. -/
@[reducible]
noncomputable def bitText : NumberText ℝ where
  display x := if x = 0 then "0" else "1"
  read? s := if s = "0" then some 0 else if s = "1" then some 1 else none

theorem isWritten_bitText {x : ℝ} (h : x = 0 ∨ x = 1) : @IsWritten ℝ _ bitText x := by
  have hzero : @NumberText.display ℝ bitText 0 = "0" := if_pos rfl
  have hone : @NumberText.display ℝ bitText 1 = "1" := if_neg one_ne_zero
  obtain rfl | rfl := h
  · refine @IsWritten.mk ℝ _ bitText 0 ?_ ?_ rfl
    · rw [hzero]
      simp [Decimal.IsPlain]
    · show @NumberText.read? ℝ bitText (@NumberText.display ℝ bitText 0) = some 0
      rw [hzero]
      exact if_pos rfl
  · refine @IsWritten.mk ℝ _ bitText 1 ?_ ?_ rfl
    · rw [hone]
      simp [Decimal.IsPlain]
    · show @NumberText.read? ℝ bitText (@NumberText.display ℝ bitText 1) = some 1
      rw [hone]
      exact (if_neg (by decide)).trans (if_pos rfl)

/-- Two samples, in seconds with doubles and in milliseconds with real numbers. -/
theorem parse_render_spec_two_samples :
    (∃ times' : List Float,
      parse .seconds (render .seconds ⟨[⟨1, 0, -0.5⟩, ⟨0, 2, 1⟩], [0.25, 0.5]⟩).toList =
          .ok ⟨[⟨1, 0, -0.5⟩, ⟨0, 2, 1⟩], times'⟩ ∧
        violation? ⟨[⟨1, 0, -0.5⟩, ⟨0, 2, 1⟩], times'⟩ = none ∧ times' = [0.25, 0.5]) ∧
      ∃ (text : NumberText ℝ) (times' : List ℝ),
        @parse ℝ _ text .milliseconds
            (@render ℝ _ text .milliseconds ⟨[⟨0, 1, 0⟩, ⟨1, 0, 0⟩], [0, 1 / 2]⟩).toList =
          .ok ⟨[⟨0, 1, 0⟩, ⟨1, 0, 0⟩], times'⟩ ∧
        violation? ⟨[⟨0, 1, 0⟩, ⟨1, 0, 0⟩], times'⟩ = none := by
  constructor
  · have hsample {p : Vec3 Float → Prop} (h : p ⟨1, 0, -0.5⟩) (h' : p ⟨0, 2, 1⟩) :
        ∀ v ∈ [⟨1, 0, -0.5⟩, ⟨0, 2, 1⟩], p v :=
      List.forall_mem_cons.mpr ⟨h, List.forall_mem_singleton.mpr h'⟩
    have htime {p : Float → Prop} (h : p 0.25) (h' : p 0.5) : ∀ t ∈ [0.25, 0.5], p t :=
      List.forall_mem_cons.mpr ⟨h, List.forall_mem_singleton.mpr h'⟩
    obtain ⟨times', hparse, hseconds, -⟩ := parse_render_spec.1 .seconds
      ⟨[⟨1, 0, -0.5⟩, ⟨0, 2, 1⟩], [0.25, 0.5]⟩ rfl (hsample rfl rfl) (htime rfl rfl)
      (hsample ⟨rfl, rfl, rfl⟩ ⟨rfl, rfl, rfl⟩) (htime rfl rfl)
    obtain ⟨-, hvalid, hsame⟩ := hseconds rfl
    exact ⟨times', hparse, hvalid (by decide), (hsame (htime (by decide) (by decide))).1⟩
  · have hsamples : ∀ v ∈ ([⟨0, 1, 0⟩, ⟨1, 0, 0⟩] : List (Vec3 ℝ)),
        @IsWrittenSample ℝ _ bitText v := by
      rintro v hv
      obtain rfl | rfl := by simpa using hv
      · exact ⟨isWritten_bitText (.inl rfl), isWritten_bitText (.inr rfl),
          isWritten_bitText (.inl rfl)⟩
      · exact ⟨isWritten_bitText (.inr rfl), isWritten_bitText (.inl rfl),
          isWritten_bitText (.inl rfl)⟩
    have hfactor : (TimeUnit.milliseconds.factor : ℝ) = 1 / 1000 := by
      simp [TimeUnit.factor, TimeUnit.perSecond]
    obtain ⟨times', hparse, -, hrange⟩ := @parse_render_spec.2 bitText .milliseconds
      ⟨[⟨0, 1, 0⟩, ⟨1, 0, 0⟩], [0, 1 / 2]⟩ (by decide) rfl hsamples
    have hvalid : violation? (⟨[⟨0, 1, 0⟩, ⟨1, 0, 0⟩], [0, 1 / 2]⟩ : Recording ℝ) = none := by
      rw [violation?_eq_none_iff]
      simp
    refine ⟨bitText, times', hparse, (hrange ?_).2 hvalid ?_⟩
    · intro t ht
      obtain rfl | rfl := by simpa using ht
      · rw [hfactor]
        norm_num
      · rw [hfactor]
        norm_num
    · rw [List.isChain_pair, hfactor]
      norm_num

end GyroDelay.Recording

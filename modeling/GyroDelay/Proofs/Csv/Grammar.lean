import Mathlib.Data.List.Forall2
import GyroDelay.Proofs.Decimal
import GyroDelay.Proofs.Outcome
import GyroDelay.Proofs.Recording
import GyroDelay.Recording.Csv

/-!
# The grammar of recordings

A text is a recording when each of its lines is blank, a comment, or four fields that read as
finite doubles (`IsWellFormed`). What one such line contributes is `Reads`; `readLines_eq_ok`
and `readLines_eq_error` follow the lines one by one. `parse_spec` says which texts are parsed,
what they hold, and at which line the others are refused.
-/

namespace GyroDelay.Recording

/-! ## Samples -/

section Samples

variable {α : Type} [Scalar α] [NumberText α]

/-- The field writes a finite number. -/
def FieldReads (field : List Char) (x : α) : Prop :=
  NumberText.read? (String.ofList field) = some x ∧ Scalar.isFinite x = true

theorem readField_eq_ok_iff {name : String} {field : List Char} {x : α} :
    readField name field = .ok x ↔ FieldReads field x := by
  simp only [readField, FieldReads]
  cases (NumberText.read? (String.ofList field) : Option α) with
  | none => simp
  | some y =>
    by_cases hy : Scalar.isFinite y = true
    · simp only [hy, if_true, Except.ok.injEq, Option.some_inj]
      exact ⟨fun h => ⟨h, h ▸ hy⟩, And.left⟩
    · simp only [hy]
      simp
      rintro rfl
      simpa using hy

/-- A sample is read from four fields: three numbers and a timestamp. -/
theorem readSample_eq_ok_iff {unit : TimeUnit} {content : List Char} {v : Vec3 α} {time : α} :
    readSample unit content = .ok (v, time) ↔
      ∃ a b c d t, (Text.fields ',' content).map Text.trim = [a, b, c, d] ∧
        FieldReads a v.x ∧ FieldReads b v.y ∧ FieldReads c v.z ∧ readTime d = .ok t ∧
        time = t * unit.factor := by
  constructor
  · intro h
    rw [readSample] at h
    split at h
    · rename_i a b c d hfields
      obtain ⟨x, hx, h⟩ := bind_eq_ok h
      obtain ⟨y, hy, h⟩ := bind_eq_ok h
      obtain ⟨z, hz, h⟩ := bind_eq_ok h
      obtain ⟨t, ht, h⟩ := bind_eq_ok h
      cases h
      exact ⟨a, b, c, d, t, hfields, readField_eq_ok_iff.mp hx, readField_eq_ok_iff.mp hy,
        readField_eq_ok_iff.mp hz, ht, rfl⟩
    · cases h
  · rintro ⟨a, b, c, d, t, hfields, hx, hy, hz, ht, rfl⟩
    rw [readSample, hfields]
    dsimp only
    rw [readField_eq_ok_iff.mpr hx, readField_eq_ok_iff.mpr hy, readField_eq_ok_iff.mpr hz, ht]
    rfl

end Samples

/-! ## Validation -/

section Validation

variable {α : Type} [Scalar α]

/-- What can still keep a recording of finite numbers from being a track. -/
theorem toTrack_eq_error_cases {r : Recording α} {fault : Fault α}
    (hlen : r.samples.length = r.times.length) (hsamples : ∀ v ∈ r.samples, v.isFinite = true)
    (htimes : ∀ t ∈ r.times, Scalar.isFinite t = true) (h : r.toTrack = .error fault) :
    (r.samples.length < 2 ∧ fault = .invalidInput (.fewSamples r.samples.length)) ∨
      ∃ k earlier later, r.times[k]? = some earlier ∧ r.times[k + 1]? = some later ∧
        later ≤ earlier ∧ fault = .invalidInput (.timestampOrder (k + 1) later earlier) := by
  have hsample : r.samples.findIdx? (fun v => !v.isFinite) = none := by
    rw [List.findIdx?_eq_none_iff]
    intro v hv
    rw [hsamples v hv]
    rfl
  have htime : r.times.findIdx? (fun t => !Scalar.isFinite t) = none := by
    rw [List.findIdx?_eq_none_iff]
    intro t ht
    rw [htimes t ht]
    rfl
  obtain ⟨v, hv, rfl⟩ := toTrack_eq_error_iff.mp h
  rw [violation?, if_neg (not_not.mpr hlen), hsample, htime] at hv
  split at hv
  · rename_i hfew
    exact .inl ⟨hfew, congrArg _ (Option.some_inj.mp hv).symm⟩
  · obtain ⟨⟨i, later, earlier⟩, hdisorder, rfl⟩ := Option.map_eq_some_iff.mp hv
    obtain ⟨k, rfl, hearlier, hlater, hle, -⟩ := disorderFrom_eq_some_iff.mp hdisorder
    refine .inr ⟨k, earlier, later, hearlier, hlater, hle, ?_⟩
    rw [Nat.zero_add]

end Validation

/-! ## Timestamps -/

/-- A field that reads as an integer reads as a double as well. -/
theorem readTime_of_readInt64? {field : List Char} {i : ℤ}
    (h : Decimal.readInt64? (String.ofList field) = some i) :
    ∃ t : Float, FieldReads field t ∧ readTime field = .ok (Float.ofInt i) ∧
      (t = Float.ofInt i ∨ i = 0 ∧ t = -0) := by
  obtain ⟨t, hread, ht⟩ := Decimal.readFloat?_of_readInt64? h
  refine ⟨t, ⟨hread, ?_⟩, ?_, ht⟩
  · obtain rfl | ⟨-, rfl⟩ := ht
    · exact Doubles.isFinite_ofInt (Option.filter_eq_some_iff.mp h).2
    · rfl
  · rw [readTime, h]
    rfl

theorem readTime_eq_ok {field : List Char} {y : Float} (h : readTime field = .ok y) :
    ∃ t, FieldReads field t ∧ (y = t ∨ t = -0 ∧ y = 0) := by
  cases hint : Decimal.readInt64? (String.ofList field) with
  | none =>
    rw [readTime, hint] at h
    exact ⟨y, readField_eq_ok_iff.mp h, .inl rfl⟩
  | some i =>
    obtain ⟨t, hfield, htime, ht⟩ := readTime_of_readInt64? hint
    obtain rfl : Float.ofInt i = y := Except.ok.inj (htime.symm.trans h)
    refine ⟨t, hfield, ?_⟩
    obtain rfl | ⟨rfl, rfl⟩ := ht
    · exact .inl rfl
    · exact .inr ⟨rfl, rfl⟩

theorem exists_readTime {field : List Char} {t : Float} (h : FieldReads field t) :
    ∃ y : Float, readTime field = .ok y := by
  cases hint : Decimal.readInt64? (String.ofList field) with
  | none =>
    rw [readTime, hint]
    exact ⟨t, readField_eq_ok_iff.mpr h⟩
  | some i =>
    obtain ⟨-, -, htime, -⟩ := readTime_of_readInt64? hint
    exact ⟨_, htime⟩

/-! ## Lines -/

/-- The line has four fields, and these are their numbers. -/
def IsRow (line : List Char) (x y z t : Float) : Prop :=
  List.Forall₂ FieldReads ((Text.fields ',' (Text.trim line)).map Text.trim) [x, y, z, t]

/-- The line can stand in a recording. -/
def IsWellFormed (line : List Char) : Prop :=
  isSkipped (Text.trim line) = true ∨ ∃ x y z t, IsRow line x y z t

/-- What a line with a sample contributes. A timestamp of minus zero that is written as an
integer is read as zero. -/
def Reads (unit : TimeUnit) (line : List Char) (row : Vec3 Float × Float) : Prop :=
  ∃ t, IsRow line row.1.x row.1.y row.1.z t ∧ (row.2 = t * unit.factor ∨ t = -0 ∧ row.2 = 0)

/-- The lines with samples. -/
def dataLines (ls : List (List Char)) : List (List Char) :=
  ls.filter fun line => !isSkipped (Text.trim line)

theorem zero_mul_factor (unit : TimeUnit) : (0 : Float) * unit.factor = 0 := by
  cases unit <;> rfl

theorem reads_of_readSample {unit : TimeUnit} {line : List Char} {row : Vec3 Float × Float}
    (h : readSample unit (Text.trim line) = .ok row) : Reads unit line row := by
  obtain ⟨v, time⟩ := row
  obtain ⟨a, b, c, d, y, hfields, hx, hy, hz, htime, rfl⟩ := readSample_eq_ok_iff.mp h
  obtain ⟨t, ht, hvalue⟩ := readTime_eq_ok htime
  refine ⟨t, ?_, ?_⟩
  · rw [IsRow, hfields]
    exact .cons hx (.cons hy (.cons hz (.cons ht .nil)))
  · obtain rfl | ⟨hzero, rfl⟩ := hvalue
    · exact .inl rfl
    · exact .inr ⟨hzero, zero_mul_factor unit⟩

theorem exists_readSample {line : List Char} {x y z t : Float} (h : IsRow line x y z t)
    (unit : TimeUnit) : ∃ row : Vec3 Float × Float, readSample unit (Text.trim line) = .ok row := by
  rw [IsRow] at h
  generalize hfields : (Text.fields ',' (Text.trim line)).map Text.trim = fields at h
  obtain _ | ⟨hx, _ | ⟨hy, _ | ⟨hz, _ | ⟨ht, _ | _⟩⟩⟩⟩ := h
  obtain ⟨s, hs⟩ := exists_readTime ht
  exact ⟨(⟨x, y, z⟩, s * unit.factor),
    readSample_eq_ok_iff.mpr ⟨_, _, _, _, s, hfields, hx, hy, hz, hs, rfl⟩⟩

theorem isFinite_of_reads {unit : TimeUnit} {line : List Char} {row : Vec3 Float × Float}
    (h : Reads unit line row) : row.1.isFinite = true ∧ row.2.isFinite = true := by
  obtain ⟨v, time⟩ := row
  obtain ⟨t, hrow, htime⟩ := h
  rw [IsRow] at hrow
  generalize (Text.fields ',' (Text.trim line)).map Text.trim = fields at hrow
  obtain _ | ⟨hx, _ | ⟨hy, _ | ⟨hz, _ | ⟨ht, _ | _⟩⟩⟩⟩ := hrow
  refine ⟨?_, ?_⟩
  · rw [Vec3.isFinite, hx.2, hy.2, hz.2]
    rfl
  · obtain rfl | ⟨-, rfl⟩ := htime
    · exact Doubles.isFinite_mul_factor ht.2 unit
    · exact Doubles.isFinite_ofNat (by decide)

theorem isFinite_of_forall₂ {unit : TimeUnit} {ls : List (List Char)}
    {rows : List (Vec3 Float × Float)} (h : List.Forall₂ (Reads unit) ls rows) :
    ∀ row ∈ rows, row.1.isFinite = true ∧ row.2.isFinite = true := by
  induction h with
  | nil => exact fun _ hrow => absurd hrow List.not_mem_nil
  | cons hread _ ih => exact List.forall_mem_cons.mpr ⟨isFinite_of_reads hread, ih⟩

/-! ## Runs over the lines -/

theorem dataLines_cons_of_pos {line : List Char} (h : isSkipped (Text.trim line) = true)
    (ls : List (List Char)) : dataLines (line :: ls) = dataLines ls := by
  rw [dataLines, List.filter_cons_of_neg]
  · rfl
  · rw [h]
    exact Bool.false_ne_true

theorem dataLines_cons_of_neg {line : List Char} (h : ¬ isSkipped (Text.trim line) = true)
    (ls : List (List Char)) : dataLines (line :: ls) = line :: dataLines ls := by
  rw [dataLines, List.filter_cons_of_pos]
  · rfl
  · rw [Bool.not_eq_true] at h
    rw [h]
    rfl

theorem readLines_eq_ok {unit : TimeUnit} {n : ℕ} {ls : List (List Char)}
    {rows : List (Vec3 Float × Float)} (h : readLines unit n ls = .ok rows) :
    (∀ line ∈ ls, IsWellFormed line) ∧ List.Forall₂ (Reads unit) (dataLines ls) rows := by
  induction ls generalizing n rows with
  | nil =>
    cases h
    exact ⟨fun _ hline => absurd hline List.not_mem_nil, .nil⟩
  | cons line ls ih =>
    rw [readLines] at h
    by_cases hskip : isSkipped (Text.trim line) = true
    · rw [if_pos hskip] at h
      obtain ⟨hall, hrows⟩ := ih h
      rw [dataLines_cons_of_pos hskip]
      exact ⟨List.forall_mem_cons.mpr ⟨.inl hskip, hall⟩, hrows⟩
    · rw [if_neg hskip] at h
      rw [dataLines_cons_of_neg hskip]
      cases hsample : (readSample unit (Text.trim line) : Except _ (Vec3 Float × Float)) with
      | error cause =>
        rw [hsample] at h
        cases h
      | ok row =>
        rw [hsample] at h
        obtain ⟨rest, hrest, rfl⟩ := map_eq_ok h
        obtain ⟨hall, hrows⟩ := ih hrest
        have hreads := reads_of_readSample hsample
        have hline : IsWellFormed line := by
          obtain ⟨t, hrow, -⟩ := hreads
          exact .inr ⟨_, _, _, t, hrow⟩
        exact ⟨List.forall_mem_cons.mpr ⟨hline, hall⟩, .cons hreads hrows⟩

/-- The fault is at the first line that does not conform, and gives its number, counted
from `n`. -/
def RefusedAt (n : ℕ) (ls : List (List Char)) (fault : Fault Float) : Prop :=
  ∃ k line cause, fault = .recordingLine (n + k) cause ∧ ls[k]? = some line ∧
    ¬ IsWellFormed line ∧ ∀ earlier ∈ ls.take k, IsWellFormed earlier

theorem RefusedAt.cons {n : ℕ} {line : List Char} {ls : List (List Char)} {fault : Fault Float}
    (hline : IsWellFormed line) (h : RefusedAt (n + 1) ls fault) :
    RefusedAt n (line :: ls) fault := by
  obtain ⟨k, bad, cause, hfault, hbad, hmalformed, hall⟩ := h
  have hplace : n + 1 + k = n + (k + 1) := by omega
  rw [hplace] at hfault
  exact ⟨k + 1, bad, cause, hfault, hbad, hmalformed, List.forall_mem_cons.mpr ⟨hline, hall⟩⟩

theorem readLines_eq_error {unit : TimeUnit} {n : ℕ} {ls : List (List Char)}
    {fault : Fault Float} (h : readLines unit n ls = .error fault) : RefusedAt n ls fault := by
  induction ls generalizing n with
  | nil => cases h
  | cons line ls ih =>
    rw [readLines] at h
    by_cases hskip : isSkipped (Text.trim line) = true
    · rw [if_pos hskip] at h
      exact (ih h).cons (.inl hskip)
    · rw [if_neg hskip] at h
      cases hsample : (readSample unit (Text.trim line) : Except _ (Vec3 Float × Float)) with
      | error cause =>
        rw [hsample] at h
        refine ⟨0, line, cause, (Except.error.inj h).symm, rfl, ?_, ?_⟩
        · rintro (hskip' | ⟨x, y, z, t, hrow⟩)
          · exact hskip hskip'
          · obtain ⟨row, hread⟩ := exists_readSample hrow unit
            rw [hsample] at hread
            cases hread
        · exact fun _ hearlier => absurd hearlier List.not_mem_nil
      | ok row =>
        rw [hsample] at h
        obtain ⟨t, hrow, -⟩ := reads_of_readSample hsample
        exact (ih (map_eq_error h)).cons (.inr ⟨_, _, _, t, hrow⟩)

/-! ## Texts -/

theorem exists_parse_iff (unit : TimeUnit) (text : List Char) :
    (∃ r : Recording Float, parse unit text = .ok r) ↔
      ∀ line ∈ Text.lines text, IsWellFormed line := by
  constructor
  · rintro ⟨r, h⟩
    obtain ⟨rows, hrows, -⟩ := map_eq_ok h
    exact (readLines_eq_ok hrows).1
  · intro hall
    cases hrows : (readLines unit 1 (Text.lines text) : Except (Fault Float) _) with
    | ok rows =>
      refine ⟨⟨rows.map (·.1), rows.map (·.2)⟩, ?_⟩
      rw [parse, hrows]
      rfl
    | error fault =>
      obtain ⟨k, line, cause, -, hline, hmalformed, -⟩ := readLines_eq_error hrows
      exact absurd (hall line (List.mem_of_getElem? hline)) hmalformed

/-- The texts of recordings. -/
theorem parse_spec (unit : TimeUnit) (text : List Char) :
    ((∃ r : Recording Float, parse unit text = .ok r) ↔
        ∀ line ∈ Text.lines text, IsWellFormed line) ∧
      (∀ r : Recording Float, parse unit text = .ok r →
        List.Forall₂ (Reads unit) (dataLines (Text.lines text)) (r.samples.zip r.times) ∧
          r.samples.length = r.times.length ∧
          (∀ v ∈ r.samples, v.isFinite = true) ∧ (∀ t ∈ r.times, t.isFinite = true) ∧
          ∀ fault, r.toTrack = .error fault →
            (r.samples.length < 2 ∧ fault = .invalidInput (.fewSamples r.samples.length)) ∨
              ∃ k earlier later, r.times[k]? = some earlier ∧ r.times[k + 1]? = some later ∧
                later ≤ earlier ∧
                fault = .invalidInput (.timestampOrder (k + 1) later earlier)) ∧
      ∀ fault : Fault Float, parse unit text = .error fault →
        RefusedAt 1 (Text.lines text) fault := by
  refine ⟨exists_parse_iff unit text, ?_, fun fault h => readLines_eq_error (map_eq_error h)⟩
  intro r h
  obtain ⟨rows, hrows, rfl⟩ := map_eq_ok h
  obtain ⟨-, hreads⟩ := readLines_eq_ok hrows
  have hfinite := isFinite_of_forall₂ hreads
  have hlen : (rows.map (·.1)).length = (rows.map (·.2)).length := by
    rw [List.length_map, List.length_map]
  have hsamples : ∀ v ∈ rows.map (·.1), v.isFinite = true := by
    rw [List.forall_mem_map]
    exact fun row hrow => (hfinite row hrow).1
  have htimes : ∀ t ∈ rows.map (·.2), t.isFinite = true := by
    rw [List.forall_mem_map]
    exact fun row hrow => (hfinite row hrow).2
  refine ⟨?_, hlen, hsamples, htimes, fun fault => toTrack_eq_error_cases hlen hsamples htimes⟩
  have hzip : (rows.map (·.1)).zip (rows.map (·.2)) = rows := by
    rw [List.zip_map', List.map_id']
  exact hzip.symm ▸ hreads

/-- A comment and a sample, which is too little for a track, and a line that lacks a field. -/
theorem parse_spec_single_sample :
    (List.Forall₂ (Reads .milliseconds) (dataLines (Text.lines "# gyro\n1,0,-0.5,5".toList))
        [(⟨1, 0, -0.5⟩, 0.005)] ∧
      ((1 < 2 ∧ (Fault.invalidInput (.fewSamples 1) : Fault Float) =
          .invalidInput (.fewSamples 1)) ∨
        ∃ (k : ℕ) (earlier later : Float), [0.005][k]? = some earlier ∧
          [0.005][k + 1]? = some later ∧ later ≤ earlier ∧
          Fault.invalidInput (.fewSamples 1) =
            .invalidInput (.timestampOrder (k + 1) later earlier))) ∧
      RefusedAt 1 (Text.lines "\n1,2,3\nx".toList) (.recordingLine 2 (.fieldCount 3)) := by
  obtain ⟨hreads, -, -, -, htrack⟩ := (parse_spec .milliseconds "# gyro\n1,0,-0.5,5".toList).2.1
    ⟨[⟨1, 0, -0.5⟩], [0.005]⟩ rfl
  exact ⟨⟨hreads, htrack (.invalidInput (.fewSamples 1)) rfl⟩,
    (parse_spec .seconds "\n1,2,3\nx".toList).2.2 _ rfl⟩

end GyroDelay.Recording

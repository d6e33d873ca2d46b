import GyroDelay.Proofs.Text.Utf8
import GyroDelay.Recording.Upload

/-!
# Uploads

An upload is the same however its bytes are split into reads: at any place, within a character
or within a number, it is received as these bytes (`receive_append`) and read as the recording
that they hold. Bytes that are a text hold the recording of the text; other bytes are reported at
the line after the longest text that they begin with (`read_spec`).
-/

namespace GyroDelay

open Text

/-! ## Bytes -/

namespace Recording

variable {α : Type} [Scalar α] [NumberText α]

theorem parseBytes_encode (unit : TimeUnit) (cs : List Char) :
    parseBytes (α := α) unit (encode cs) = parse unit cs := by
  rw [parseBytes, decode_encode]

/-- Bytes that are a text are read as that text. -/
theorem parseBytes_of_isValidUTF8 (unit : TimeUnit) {bytes : List UInt8}
    (h : bytes.toByteArray.IsValidUTF8) :
    parseBytes (α := α) unit bytes =
      parse unit (String.ofByteArray bytes.toByteArray h).toList := by
  obtain ⟨cs, rfl⟩ := (isText_iff bytes).mpr h
  have hstring : String.ofByteArray (encode cs).toByteArray h = String.ofList cs := rfl
  rw [hstring, String.toList_ofList, parseBytes_encode]

/-- The line of a fault follows the line feeds in front of it, whatever the lines hold. -/
theorem parseBytes_of_not_isValidUTF8 (unit : TimeUnit) {bytes : List UInt8}
    (h : ¬ bytes.toByteArray.IsValidUTF8) :
    ∃ text fault, IsLongestText text bytes ∧ fault.validUpTo = text.length ∧
      parseBytes (α := α) unit bytes =
        .error (.recordingLine (1 + text.count 10) (.notText fault)) := by
  obtain ⟨fault, text, hdecode, hlongest, hstart, hfeeds⟩ :=
    decode_error (mt (isText_iff bytes).mp h)
  refine ⟨text, fault, hlongest, hstart, ?_⟩
  rw [parseBytes, hdecode, ← hfeeds, Nat.add_comm]

end Recording

namespace Upload

/-! ## Reads -/

/-- Reads that a buffer has room for and that hold something. -/
def Fill (bufferSize : ℕ) (reads : List (List UInt8)) : Prop :=
  ∀ chunk ∈ reads, 1 ≤ chunk.length ∧ chunk.length ≤ bufferSize

instance (bufferSize : ℕ) (reads : List (List UInt8)) : Decidable (Fill bufferSize reads) :=
  inferInstanceAs (Decidable (∀ chunk ∈ reads, 1 ≤ chunk.length ∧ chunk.length ≤ bufferSize))

theorem receive_append {α : Type} {bufferSize : ℕ} (hsize : 1 ≤ bufferSize)
    {reads rest : List (List UInt8)} (hreads : Fill bufferSize reads) (hrest : rest.headD [] = []) :
    receive (α := α) bufferSize (reads ++ rest) = .ok reads.flatten := by
  have hfull : ∀ chunk ∈ reads, (!chunk.isEmpty) = true := by
    intro chunk hchunk
    have hlength := (hreads chunk hchunk).1
    cases chunk with
    | nil => cases hlength
    | cons b chunk => rfl
  have hstop : rest.takeWhile (fun chunk => !chunk.isEmpty) = [] := by
    cases rest with
    | nil => rfl
    | cons chunk rest =>
      obtain rfl : chunk = [] := hrest
      rfl
  rw [receive, if_neg (by omega), List.takeWhile_append_of_pos hfull, hstop, List.append_nil]

theorem splitFrom_spec {size : ℕ} (hsize : 1 ≤ size) (fuel : ℕ) (bytes : List UInt8)
    (hfuel : bytes.length ≤ fuel) :
    Fill size (splitFrom size fuel bytes) ∧ (splitFrom size fuel bytes).flatten = bytes := by
  induction fuel generalizing bytes with
  | zero =>
    obtain rfl : bytes = [] := List.length_eq_zero_iff.mp (by omega)
    exact ⟨nofun, rfl⟩
  | succ fuel ih =>
    cases bytes with
    | nil => exact ⟨nofun, rfl⟩
    | cons b bytes =>
      obtain ⟨hfill, hflatten⟩ := ih ((b :: bytes).drop size) (by
        rw [List.length_drop]
        omega)
      rw [splitFrom, List.isEmpty_cons, if_neg Bool.false_ne_true]
      refine ⟨List.forall_mem_cons.mpr ⟨?_, hfill⟩, ?_⟩
      · rw [List.length_take, List.length_cons]
        omega
      · rw [List.flatten_cons, hflatten, List.take_append_drop]

/-- Full buffers are one way to split bytes into reads. -/
theorem split_spec {size : ℕ} (hsize : 1 ≤ size) (bytes : List UInt8) :
    Fill size (split size bytes) ∧ (split size bytes).flatten = bytes :=
  splitFrom_spec hsize _ bytes le_rfl

/-- **An upload is read as its bytes, however they arrive.** -/
theorem read_spec {α : Type} [Scalar α] [NumberText α] (unit : TimeUnit) {bufferSize : ℕ}
    (hsize : 1 ≤ bufferSize) {bytes : List UInt8} {reads rest : List (List UInt8)}
    (hreads : Fill bufferSize reads) (hbytes : reads.flatten = bytes)
    (hrest : rest.headD [] = []) :
    (read (α := α) bufferSize unit (reads ++ rest)).result =
        (Recording.parseBytes unit bytes).map (bytes, ·) ∧
      (∀ h : bytes.toByteArray.IsValidUTF8, Recording.parseBytes (α := α) unit bytes =
        Recording.parse unit (String.ofByteArray bytes.toByteArray h).toList) ∧
      (¬ bytes.toByteArray.IsValidUTF8 → ∃ text fault, IsLongestText text bytes ∧
        fault.validUpTo = text.length ∧ Recording.parseBytes (α := α) unit bytes =
          .error (.recordingLine (1 + text.count 10) (.notText fault))) := by
  refine ⟨?_, Recording.parseBytes_of_isValidUTF8 unit,
    Recording.parseBytes_of_not_isValidUTF8 unit⟩
  rw [read, receive_append hsize hreads hrest, hbytes]

/-- A comment that arrives in two reads, and one whose second line ends within a character, which
is cut in two as well. -/
theorem read_spec_comment :
    (∃ h : [0x23, 0xA].toByteArray.IsValidUTF8,
      (read (α := Float) 1 .seconds ([[0x23], [0xA]] ++ [])).result =
          (Recording.parseBytes .seconds [0x23, 0xA]).map ([0x23, 0xA], ·) ∧
        Recording.parseBytes (α := Float) .seconds [0x23, 0xA] =
          Recording.parse .seconds (String.ofByteArray [0x23, 0xA].toByteArray h).toList) ∧
      ∃ text fault, IsLongestText text [0x23, 0xA, 0xE2, 0x82] ∧
        fault.validUpTo = text.length ∧
        Recording.parseBytes (α := Float) .seconds [0x23, 0xA, 0xE2, 0x82] =
          .error (.recordingLine (1 + text.count 10) (.notText fault)) := by
  have hvalid : [0x23, 0xA].toByteArray.IsValidUTF8 := (isText_iff _).mp ⟨['#', '\n'], rfl⟩
  have hdecode : decode [0x23, 0xA, 0xE2, 0x82] = .error ⟨2, none, 1⟩ := rfl
  have hinvalid : ¬ [0x23, 0xA, 0xE2, 0x82].toByteArray.IsValidUTF8 :=
    mt (isText_iff _).mpr (not_isText_of_decode hdecode)
  have hfill : Fill 1 [[0x23], [0xA]] := by decide
  have hfill' : Fill 3 [[0x23, 0xA, 0xE2], [0x82]] := by decide
  have hend : ([] : List (List UInt8)).headD [] = [] := rfl
  obtain ⟨hresult, hparse, -⟩ := read_spec (α := Float) .seconds le_rfl hfill rfl hend
  exact ⟨⟨hvalid, hresult, hparse hvalid⟩,
    (read_spec (α := Float) .seconds (by decide) hfill' rfl hend).2.2 hinvalid⟩

end Upload

end GyroDelay

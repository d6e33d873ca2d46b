import Mathlib.Data.List.TakeWhile
import GyroDelay.Decimal.NumberText
import GyroDelay.Proofs.Doubles

/-!
# Decimal texts and what they read as

An integer of 64 bits reads back (`readInt64?_toString`). A text that reads as such an
integer reads as a double too, and as the double nearest to the integer, except that `-0`
keeps its sign (`readFloat?_of_readInt64?`). In a layout without exponents the text of a finite
double has digits, points and minus signs only (`isPlain_text`).
-/

namespace GyroDelay.Decimal

/-! ## Digits -/

theorem readNat?_eq_some_iff {cs : List Char} {n : ℕ} :
    readNat? cs = some n ↔ cs ≠ [] ∧ (∀ c ∈ cs, c.isDigit = true) ∧ ofDigits cs = n := by
  simp only [readNat?, Option.ite_none_left_eq_some, Bool.or_eq_true, not_or,
    List.isEmpty_iff, Bool.not_eq_true', Bool.not_eq_false, List.all_eq_true, Option.some_inj,
    and_assoc, ne_eq]

theorem ofDigits_toDigits (n : ℕ) : ofDigits (Nat.toDigits 10 n) = n := by
  have hfold := @Nat.ofDigitChars_eq_foldl 10 (Nat.toDigits 10 n) 0
  rw [Nat.ofDigitChars_ten_toDigits] at hfold
  exact hfold.symm

theorem isDigit_of_mem_toDigits {n : ℕ} {c : Char} (hc : c ∈ Nat.toDigits 10 n) :
    c.isDigit = true :=
  Nat.isDigit_of_mem_toDigits (by decide) (by decide) hc

theorem readNat?_toDigits (n : ℕ) : readNat? (Nat.toDigits 10 n) = some n :=
  readNat?_eq_some_iff.mpr
    ⟨Nat.toDigits_ne_nil, fun _ hc => isDigit_of_mem_toDigits hc, ofDigits_toDigits n⟩

theorem foldl_digitValue_lt {cs : List Char} (h : ∀ c ∈ cs, c.isDigit = true) (n : ℕ) :
    cs.foldl (fun n c => 10 * n + digitValue c) n < (n + 1) * 10 ^ cs.length := by
  induction cs generalizing n with
  | nil => simp
  | cons c cs ih =>
    obtain ⟨hc, hcs⟩ := List.forall_mem_cons.mp h
    rw [Char.isDigit, Bool.and_eq_true, decide_eq_true_eq, decide_eq_true_eq] at hc
    have hvalue : digitValue c ≤ 9 := by
      have hle : c.toNat ≤ 57 := hc.2
      change c.toNat - 48 ≤ 9
      omega
    calc _ < (10 * n + digitValue c + 1) * 10 ^ cs.length := ih hcs _
      _ ≤ ((n + 1) * 10) * 10 ^ cs.length := Nat.mul_le_mul_right _ (by omega)
      _ = (n + 1) * 10 ^ (c :: cs).length := by rw [List.length_cons, pow_succ', mul_assoc]

/-- The digits of a number do not begin with a zero, unless the number is zero. -/
theorem toDigits_eq_zero_cons {n : ℕ} {tail : List Char} (h : Nat.toDigits 10 n = '0' :: tail) :
    tail = [] := by
  by_contra hne
  have hdigit : ∀ c ∈ '0' :: tail, c.isDigit = true := by
    intro c hc
    rw [← h] at hc
    exact isDigit_of_mem_toDigits hc
  have hvalue : n = tail.foldl (fun n c => 10 * n + digitValue c) 0 := by
    rw [← ofDigits_toDigits n, h]
    rfl
  have hlt := foldl_digitValue_lt (List.forall_mem_cons.mp hdigit).2 0
  rw [← hvalue, Nat.zero_add, one_mul] at hlt
  have hle := (Nat.length_toDigits_le_iff (by decide) (List.length_pos_iff.mpr hne)).mpr hlt
  rw [h, List.length_cons] at hle
  omega

theorem splitSign_of_isDigit {cs : List Char} (h : ∀ c ∈ cs, c.isDigit = true) :
    splitSign cs = (false, cs) := by
  rw [splitSign]
  · rintro _ rfl
    exact absurd (h '-' List.mem_cons_self) (by decide)
  · rintro _ rfl
    exact absurd (h '+' List.mem_cons_self) (by decide)

theorem toLower_of_isDigit {c : Char} (hc : c.isDigit = true) : c.toLower = c := by
  simp only [Char.isDigit, Bool.and_eq_true, decide_eq_true_eq] at hc
  have hlt : c.val < 'A'.val := UInt32.lt_of_le_of_lt hc.2 (by decide)
  rw [Char.toLower, dif_neg]
  rintro ⟨hge, -⟩
  exact absurd hlt (UInt32.not_lt.mpr hge)

/-! ## Integers -/

theorem readInt?_eq_some {cs : List Char} {i : ℤ} (h : readInt? cs = some i) :
    ∃ negative digits, ∃ n : ℕ, splitSign cs = (negative, digits) ∧ readNat? digits = some n ∧
      i = if negative then -(n : ℤ) else n := by
  rw [readInt?] at h
  obtain ⟨k, hk, hi⟩ := Option.map_eq_some_iff.mp h
  obtain ⟨n, hn, hcast⟩ := Option.bind_eq_some_iff.mp hk
  obtain rfl : (n : ℤ) = k := Option.some_inj.mp hcast
  exact ⟨_, _, n, rfl, hn, hi.symm⟩

theorem readInt?_of_splitSign {cs digits : List Char} {negative : Bool} {n : ℕ}
    (hsplit : splitSign cs = (negative, digits)) (hn : readNat? digits = some n) :
    readInt? cs = some (if negative then -(n : ℤ) else n) := by
  rw [readInt?, hsplit]
  dsimp only
  rw [hn]
  rfl

theorem readInt?_repr (i : ℤ) : readInt? i.repr.toList = some i := by
  cases i with
  | ofNat n =>
    change readInt? n.repr.toList = _
    rw [Nat.toList_repr]
    have hsplit := splitSign_of_isDigit fun _ hc => @isDigit_of_mem_toDigits n _ hc
    exact readInt?_of_splitSign hsplit (readNat?_toDigits n)
  | negSucc n =>
    change readInt? ("-" ++ (n + 1).repr).toList = _
    rw [String.toList_append, Nat.toList_repr]
    have hsplit : splitSign ("-".toList ++ Nat.toDigits 10 (n + 1)) =
        (true, Nat.toDigits 10 (n + 1)) := by
      simp [splitSign]
    exact readInt?_of_splitSign hsplit (readNat?_toDigits (n + 1))

theorem readInt64?_toString {i : ℤ} (h : isSigned 64 i = true) :
    readInt64? (toString i) = some i := by
  rw [readInt64?, Int.toString_eq_repr, readInt?_repr, Option.filter_some, if_pos h]

/-! ## Integers read as doubles -/

/-- Digits alone are an unsigned number without a point and an exponent. -/
theorem readUnsigned?_of_readNat? {cs : List Char} {n : ℕ} (h : readNat? cs = some n)
    (negative : Bool) : readUnsigned? negative cs = some (nearest negative n 0) := by
  obtain ⟨hne, hdigit, hvalue⟩ := readNat?_eq_some_iff.mp h
  have hwhole : cs.takeWhile Char.isDigit = cs := List.takeWhile_eq_self_iff.mpr hdigit
  have hrest : cs.dropWhile Char.isDigit = [] := List.dropWhile_eq_nil_iff.mpr hdigit
  have hempty : cs.isEmpty = false := List.isEmpty_eq_false_iff.mpr hne
  simp only [readUnsigned?, hwhole, hrest, hempty]
  simp [readExponent?, hvalue]

theorem ne_of_isDigit {cs word : List Char} (hne : cs ≠ []) (h : ∀ c ∈ cs, c.isDigit = true)
    (hword : ∀ c ∈ word, c.isDigit = false) : cs.map Char.toLower ≠ word := by
  rintro rfl
  obtain ⟨c, hc⟩ := List.exists_mem_of_ne_nil cs hne
  have hlower := hword c.toLower (List.mem_map_of_mem hc)
  rw [toLower_of_isDigit (h c hc), h c hc] at hlower
  contradiction

theorem nearest_ofNat {n : ℕ} (h : n ≤ 2 ^ 63) (negative : Bool) :
    nearest negative n 0 = if negative then -Float.ofNat n else Float.ofNat n := by
  have hsize : (Nat.toDigits 10 n).length ≤ 19 :=
    (Nat.length_toDigits_le_iff (by decide) (by decide)).mpr (by omega)
  have hmagnitude : (if n = 0 then 0
      else if 310 < (0 : ℤ) + (Nat.toDigits 10 n).length then 1 / 0
      else if (0 : ℤ) + (Nat.toDigits 10 n).length < -330 then 0
      else if (0 : ℤ) ≤ 0 then Float.ofScientific n false (0 : ℤ).toNat
      else Float.ofScientific n true (-0 : ℤ).toNat) = Float.ofNat n := by
    by_cases hn : n = 0
    · rw [if_pos hn, hn]
      rfl
    · rw [if_neg hn, if_neg (by omega), if_neg (by omega), if_pos le_rfl]
      rfl
  rw [nearest, hmagnitude]

theorem readFloat?_of_digits {s : String} {negative : Bool} {digits : List Char} {n : ℕ}
    (hsplit : splitSign s.toList = (negative, digits)) (hn : readNat? digits = some n) :
    readFloat? s = some (nearest negative n 0) := by
  obtain ⟨hne, hdigit, -⟩ := readNat?_eq_some_iff.mp hn
  have hinf := @ne_of_isDigit digits "inf".toList hne hdigit (by simp)
  have hinfinity := @ne_of_isDigit digits "infinity".toList hne hdigit (by simp)
  have hnan := @ne_of_isDigit digits "nan".toList hne hdigit (by simp)
  rw [readFloat?, hsplit]
  simp only [hinf, hinfinity, hnan]
  exact readUnsigned?_of_readNat? hn negative

/-- An integer reads as the double nearest to it; `-0` reads as minus zero. -/
theorem readFloat?_of_readInt64? {s : String} {i : ℤ} (h : readInt64? s = some i) :
    ∃ y, readFloat? s = some y ∧ (y = Float.ofInt i ∨ i = 0 ∧ y = -0) := by
  obtain ⟨hi, hrange⟩ := Option.filter_eq_some_iff.mp h
  obtain ⟨negative, digits, n, hsplit, hn, hvalue⟩ := readInt?_eq_some hi
  rw [isSigned, Bool.and_eq_true, decide_eq_true_eq, decide_eq_true_eq] at hrange
  change -2 ^ 63 ≤ i ∧ i < 2 ^ 63 at hrange
  have hsmall : n ≤ 2 ^ 63 := by
    cases negative
    · rw [if_neg Bool.false_ne_true] at hvalue
      omega
    · rw [if_pos rfl] at hvalue
      omega
  refine ⟨_, readFloat?_of_digits hsplit hn, ?_⟩
  rw [nearest_ofNat hsmall, hvalue]
  cases negative with
  | false => exact .inl rfl
  | true =>
    cases n with
    | zero => exact .inr ⟨rfl, rfl⟩
    | succ n => exact .inl rfl

/-! ## The texts of doubles -/

/-- Whether a character can occur in the text of a finite double. -/
def IsPlain (c : Char) : Prop := c.isDigit = true ∨ c = '-' ∨ c = '.'

theorem IsPlain.bounds {c : Char} (h : IsPlain c) : 45 ≤ c.toNat ∧ c.toNat ≤ 57 := by
  obtain hdigit | rfl | rfl := h
  · rw [Char.isDigit, Bool.and_eq_true, decide_eq_true_eq, decide_eq_true_eq] at hdigit
    have hlow : 48 ≤ c.toNat := hdigit.1
    have hhigh : c.toNat ≤ 57 := hdigit.2
    omega
  · decide
  · decide

theorem isPlain_toString (n : ℕ) : ∀ c ∈ (toString n).toList, IsPlain c := by
  intro c hc
  rw [Nat.toString_eq_repr, Nat.toList_repr] at hc
  exact .inl (isDigit_of_mem_toDigits hc)

theorem isPlain_empty : ∀ c ∈ "".toList, IsPlain c := by
  simp

theorem isPlain_append {s t : String} (hs : ∀ c ∈ s.toList, IsPlain c)
    (ht : ∀ c ∈ t.toList, IsPlain c) : ∀ c ∈ (s ++ t).toList, IsPlain c := by
  intro c hc
  rw [String.toList_append, List.mem_append] at hc
  exact hc.elim (hs c) (ht c)

theorem isPlain_toString_int (i : ℤ) : ∀ c ∈ (toString i).toList, IsPlain c := by
  cases i with
  | ofNat n => exact isPlain_toString n
  | negSucc n =>
    have hminus : ∀ c ∈ "-".toList, IsPlain c := by simp [IsPlain]
    exact isPlain_append hminus (isPlain_toString (n + 1))

theorem isPlain_padded (width n : ℕ) : ∀ c ∈ (padded width n).toList, IsPlain c := by
  refine isPlain_append ?_ (isPlain_toString n)
  rw [String.pushn_eq_repeat_push]
  induction width - (toString n).length with
  | zero => exact isPlain_empty
  | succ k ih =>
    intro c hc
    rw [Nat.repeat, String.toList_push, List.mem_append, List.mem_singleton] at hc
    rcases hc with hc | rfl
    · exact ih c hc
    · exact .inl (by decide)

theorem isPlain_positional {whole : String} (hwhole : ∀ c ∈ whole.toList, IsPlain c) (d : Digits) :
    ∀ c ∈ (d.positional whole).toList, IsPlain c := by
  rw [Digits.positional]
  split
  · exact isPlain_append (isPlain_toString _) hwhole
  · have hpoint : ∀ c ∈ ".".toList, IsPlain c := by simp [IsPlain]
    exact isPlain_append (isPlain_append (isPlain_toString _) hpoint) (isPlain_padded _ _)

/-- In a layout without exponents the text of a finite double is its sign and positional digits. -/
theorem isPlain_text {l : Layout} (hlow : l.low = none) (hhigh : l.high = none)
    (hwhole : ∀ c ∈ l.whole.toList, IsPlain c) (hzero : ∀ c ∈ l.zero.toList, IsPlain c) {x : Float}
    (h : x.isFinite = true) : ∀ c ∈ (l.text x).toList, IsPlain c := by
  have hnan : x.isNaN = false ∧ x.isInf = false := Doubles.not_special h
  have hsign : ∀ c ∈ (if signBit x then "-" else "").toList, IsPlain c := by
    split
    · simp [IsPlain]
    · exact isPlain_empty
  rw [Layout.text, if_neg (by rw [hnan.1]; exact Bool.false_ne_true)]
  dsimp only
  rw [if_neg (by rw [hnan.2]; exact Bool.false_ne_true)]
  split
  · exact isPlain_append hsign hzero
  · rw [Layout.digits, hlow, hhigh]
    exact isPlain_append hsign (isPlain_positional hwhole _)

theorem isPlain_display {x : Float} (h : x.isFinite = true) :
    ∀ c ∈ (display x).toList, IsPlain c :=
  isPlain_text rfl rfl isPlain_empty (by simp [Layout.plain, IsPlain]) h

end GyroDelay.Decimal

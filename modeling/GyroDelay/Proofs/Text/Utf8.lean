import Mathlib.Algebra.Order.Group.Nat
import Mathlib.Data.List.Basic
import GyroDelay.Text.Utf8

/-!
# Valid UTF-8

A character that has begun stands for the codes whose encodings begin with the bytes so far: the
bits that were taken are the leading ones of the code, and the next six bits are in the range of
the next byte (`Pending.Covers`). A first byte and each byte after it keep this up, and a byte is
refused exactly when no encoding goes on with it (`Stands.opens`, `Stands.refused`). So decoding
takes exactly the encodings of texts (`decode_encode`), and what it takes before a fault is the
longest text that the bytes begin with (`decode_error`).
-/

namespace GyroDelay.Text

open String (utf8EncodeChar)

/-- The bytes of a text. -/
def encode (cs : List Char) : List UInt8 := cs.flatMap utf8EncodeChar

/-- Whether bytes are the bytes of a text. -/
def IsText (bytes : List UInt8) : Prop := ∃ cs, encode cs = bytes

/-- The longest text that bytes begin with. -/
structure IsLongestText (text bytes : List UInt8) : Prop where
  isText : IsText text
  begins : text <+: bytes
  length_le : ∀ other, IsText other → other <+: bytes → other.length ≤ text.length

/-! ## The bytes of a character -/

theorem eq_ofNat_iff {b : UInt8} {k : ℕ} (hk : k < 256) : b = UInt8.ofNat k ↔ b.toNat = k := by
  rw [← UInt8.toNat_inj, UInt8.toNat_ofNat_of_lt' hk]

theorem toNat_valid (c : Char) : c.toNat < 0xD800 ∨ 0xDFFF < c.toNat ∧ c.toNat < 0x110000 :=
  c.valid

theorem toNat_ofNat {n : ℕ} (h : n.isValidChar) : (Char.ofNat n).toNat = n := by
  rw [Char.ofNat, dif_pos h]
  rfl

/-- The encodings of one to four bytes. -/
theorem utf8EncodeChar_cases (c : Char) :
    (c.toNat < 0x80 ∧ utf8EncodeChar c = [UInt8.ofNat c.toNat]) ∨
      (0x80 ≤ c.toNat ∧ c.toNat < 0x800 ∧ utf8EncodeChar c =
        [UInt8.ofNat (c.toNat / 64 + 0xC0), UInt8.ofNat (c.toNat % 64 + 0x80)]) ∨
      (0x800 ≤ c.toNat ∧ c.toNat < 0x10000 ∧ utf8EncodeChar c =
        [UInt8.ofNat (c.toNat / 4096 + 0xE0), UInt8.ofNat (c.toNat / 64 % 64 + 0x80),
          UInt8.ofNat (c.toNat % 64 + 0x80)]) ∨
      (0x10000 ≤ c.toNat ∧ utf8EncodeChar c =
        [UInt8.ofNat (c.toNat / 262144 + 0xF0), UInt8.ofNat (c.toNat / 4096 % 64 + 0x80),
          UInt8.ofNat (c.toNat / 64 % 64 + 0x80), UInt8.ofNat (c.toNat % 64 + 0x80)]) := by
  have hvalid := toNat_valid c
  have hval : c.val.toNat = c.toNat := rfl
  rw [utf8EncodeChar, hval]
  generalize c.toNat = n at hvalid
  split
  · exact .inl ⟨by omega, rfl⟩
  · split
    · rw [Nat.mod_eq_of_lt (a := n / 64) (by omega)]
      exact .inr (.inl ⟨by omega, by omega, rfl⟩)
    · split
      · rw [Nat.mod_eq_of_lt (a := n / 4096) (by omega)]
        exact .inr (.inr (.inl ⟨by omega, by omega, rfl⟩))
      · rw [Nat.mod_eq_of_lt (a := n / 262144) (by omega)]
        exact .inr (.inr (.inr ⟨by omega, rfl⟩))

/-- The first byte of the character with a code. -/
def leadByte (n : ℕ) : ℕ :=
  if n < 0x80 then n
  else if n < 0x800 then n / 64 + 0xC0
  else if n < 0x10000 then n / 4096 + 0xE0
  else n / 262144 + 0xF0

theorem leadByte_cases (n : ℕ) :
    n < 0x80 ∧ leadByte n = n ∨ 0x80 ≤ n ∧ n < 0x800 ∧ leadByte n = n / 64 + 0xC0 ∨
      0x800 ≤ n ∧ n < 0x10000 ∧ leadByte n = n / 4096 + 0xE0 ∨
      0x10000 ≤ n ∧ leadByte n = n / 262144 + 0xF0 := by
  rw [leadByte]
  split_ifs <;> omega

theorem singleton_prefix_iff (b : UInt8) (c : Char) :
    [b] <+: utf8EncodeChar c ↔ b.toNat = leadByte c.toNat := by
  have hvalid := toNat_valid c
  have hlead := leadByte_cases c.toNat
  rcases utf8EncodeChar_cases c with ⟨h, henc⟩ | ⟨hl, hu, henc⟩ | ⟨hl, hu, henc⟩ | ⟨hl, henc⟩ <;>
    rw [henc, List.cons_prefix_cons, eq_ofNat_iff (by omega)] <;>
    simp only [List.nil_prefix, and_true] <;> omega

/-- How many bytes the character with a code has. -/
def byteCount (n : ℕ) : ℕ :=
  if n < 0x80 then 1 else if n < 0x800 then 2 else if n < 0x10000 then 3 else 4

theorem byteCount_cases (n : ℕ) :
    n < 0x80 ∧ byteCount n = 1 ∨ 0x80 ≤ n ∧ n < 0x800 ∧ byteCount n = 2 ∨
      0x800 ≤ n ∧ n < 0x10000 ∧ byteCount n = 3 ∨ 0x10000 ≤ n ∧ byteCount n = 4 := by
  rw [byteCount]
  split_ifs <;> omega

theorem byteCount_pos (n : ℕ) : 0 < byteCount n := by
  have hcount := byteCount_cases n
  omega

theorem length_utf8EncodeChar (c : Char) : (utf8EncodeChar c).length = byteCount c.toNat := by
  have hcount := byteCount_cases c.toNat
  rcases utf8EncodeChar_cases c with ⟨h, henc⟩ | ⟨hl, hu, henc⟩ | ⟨hl, hu, henc⟩ | ⟨hl, henc⟩ <;>
    rw [henc] <;> simp only [List.length_cons, List.length_nil] <;> omega

/-- All bytes but the first hold six bits each. -/
theorem getElem?_utf8EncodeChar {c : Char} {i k : ℕ} (hi : 0 < i)
    (h : byteCount c.toNat = i + (k + 1)) :
    (utf8EncodeChar c)[i]? = some (UInt8.ofNat (c.toNat / 64 ^ k % 64 + 0x80)) := by
  rw [← length_utf8EncodeChar] at h
  rcases utf8EncodeChar_cases c with ⟨-, henc⟩ | ⟨-, -, henc⟩ | ⟨-, -, henc⟩ | ⟨-, henc⟩ <;>
    rw [henc] at h ⊢ <;> simp only [List.length_cons, List.length_nil] at h
  · omega
  · obtain ⟨rfl, rfl⟩ : i = 1 ∧ k = 0 := by omega
    rw [pow_zero, Nat.div_one]
    rfl
  · obtain ⟨rfl, rfl⟩ | ⟨rfl, rfl⟩ : i = 1 ∧ k = 1 ∨ i = 2 ∧ k = 0 := by omega
    · rfl
    · rw [pow_zero, Nat.div_one]
      rfl
  · obtain ⟨rfl, rfl⟩ | ⟨rfl, rfl⟩ | ⟨rfl, rfl⟩ :
        i = 1 ∧ k = 2 ∨ i = 2 ∧ k = 1 ∨ i = 3 ∧ k = 0 := by omega
    · rfl
    · rfl
    · rw [pow_zero, Nat.div_one]
      rfl

/-- No character's bytes begin with those of another one. -/
theorem eq_of_utf8EncodeChar_prefix {c d : Char} {rest : List UInt8}
    (h : utf8EncodeChar d <+: utf8EncodeChar c ++ rest) : d = c := by
  obtain ⟨tail, htail⟩ := h
  have hdecode := congrArg (fun bytes => bytes.toByteArray.utf8DecodeChar? 0) htail
  simp only [List.toByteArray_append, ByteArray.utf8DecodeChar?_utf8EncodeChar_append] at hdecode
  exact Option.some_inj.mp hdecode

/-! ## Begun characters -/

namespace Pending

/-- The codes that a begun character may still have: their leading bits have been taken, and the
next byte is in range. -/
def Covers (p : Pending) (n : ℕ) : Prop :=
  n / 64 ^ p.owed = p.code ∧
    (p.owed = 0 ∨ p.low ≤ 0x80 + n / 64 ^ (p.owed - 1) % 64 ∧
      0x80 + n / 64 ^ (p.owed - 1) % 64 ≤ p.high)

/-- A begun character and the bytes that were taken for it. -/
structure Opens (taken : List UInt8) (p : Pending) : Prop where
  seen_eq : p.seen = taken.length
  seen_pos : 0 < p.seen
  range : p.owed = 0 ∨ 0x80 ≤ p.low ∧ p.low ≤ p.high ∧ p.high ≤ 0xBF
  code : ∀ n, p.Covers n → n.isValidChar ∧ byteCount n = p.seen + p.owed
  covers : ∀ c, taken <+: utf8EncodeChar c ↔ p.Covers c.toNat

/-- The first bytes of one to four bytes, and those of no character. -/
theorem begin?_cases (k : ℕ) :
    (k < 0x80 ∧ begin? k = some ⟨0, 1, k, 0, 0⟩) ∨
      (0xC2 ≤ k ∧ k < 0xE0 ∧ begin? k = some ⟨1, 1, k - 0xC0, 0x80, 0xBF⟩) ∨
      (∃ low high, 0xE0 ≤ k ∧ k < 0xF0 ∧ (k = 0xE0 ∧ low = 0xA0 ∨ k ≠ 0xE0 ∧ low = 0x80) ∧
        (k = 0xED ∧ high = 0x9F ∨ k ≠ 0xED ∧ high = 0xBF) ∧
        begin? k = some ⟨2, 1, k - 0xE0, low, high⟩) ∨
      (∃ low high, 0xF0 ≤ k ∧ k < 0xF5 ∧ (k = 0xF0 ∧ low = 0x90 ∨ k ≠ 0xF0 ∧ low = 0x80) ∧
        (k = 0xF4 ∧ high = 0x8F ∨ k ≠ 0xF4 ∧ high = 0xBF) ∧
        begin? k = some ⟨3, 1, k - 0xF0, low, high⟩) ∨
      (0x80 ≤ k ∧ k < 0xC2 ∨ 0xF5 ≤ k) ∧ begin? k = none := by
  generalize hbegin : begin? k = p
  rw [begin?] at hbegin
  split_ifs at hbegin with h1 h2 h3 h4 h5 h6 h7 h8 h9 <;> subst hbegin
  · exact .inl ⟨h1, rfl⟩
  · exact .inr (.inr (.inr (.inr ⟨by omega, rfl⟩)))
  · exact .inr (.inl ⟨by omega, by omega, rfl⟩)
  · subst h4
    exact .inr (.inr (.inl ⟨0xA0, 0xBF, by omega, by omega, by omega, by omega, rfl⟩))
  · subst h5
    exact .inr (.inr (.inl ⟨0x80, 0x9F, by omega, by omega, by omega, by omega, rfl⟩))
  · exact .inr (.inr (.inl ⟨0x80, 0xBF, by omega, by omega, by omega, by omega, rfl⟩))
  · subst h7
    exact .inr (.inr (.inr (.inl ⟨0x90, 0xBF, by omega, by omega, by omega, by omega, rfl⟩)))
  · exact .inr (.inr (.inr (.inl ⟨0x80, 0xBF, by omega, by omega, by omega, by omega, rfl⟩)))
  · subst h9
    exact .inr (.inr (.inr (.inl ⟨0x80, 0x8F, by omega, by omega, by omega, by omega, rfl⟩)))
  · exact .inr (.inr (.inr (.inr ⟨by omega, rfl⟩)))

/-- The first byte of a valid code announces a character that covers the code. -/
theorem leadByte_eq_iff {n : ℕ} (hvalid : n < 0xD800 ∨ 0xDFFF < n ∧ n < 0x110000) (k : ℕ) :
    k = leadByte n ↔ ∃ p, begin? k = some p ∧ p.Covers n := by
  have hlead := leadByte_cases n
  rcases begin?_cases k with ⟨hk, h⟩ | ⟨hk, hk', h⟩ | ⟨low, high, hk, hk', hlow, hhigh, h⟩ |
      ⟨low, high, hk, hk', hlow, hhigh, h⟩ | ⟨hk, h⟩ <;> rw [h] <;>
    simp only [Option.some.injEq, exists_eq_left', Covers, Nat.reduceSub, Nat.reducePow,
      Nat.div_one, false_and, exists_false, reduceCtorEq, iff_false, true_or, and_true,
      false_or] <;>
    omega

theorem opens_of_begin? {b : UInt8} {p : Pending} (h : begin? b.toNat = some p) :
    Opens [b] p := by
  have hcovers (c : Char) : [b] <+: utf8EncodeChar c ↔ p.Covers c.toNat := by
    rw [singleton_prefix_iff, leadByte_eq_iff (toNat_valid c), h]
    simp
  have hb := b.toNat_lt
  generalize b.toNat = k at h hb
  rcases begin?_cases k with ⟨hk, h'⟩ | ⟨hk, hk', h'⟩ | ⟨low, high, hk, hk', hlow, hhigh, h'⟩ |
      ⟨low, high, hk, hk', hlow, hhigh, h'⟩ | ⟨hk, h'⟩ <;> cases h.symm.trans h' <;>
    refine ⟨rfl, Nat.one_pos, by dsimp only; omega, fun n => ?_, hcovers⟩ <;>
    have hcount := byteCount_cases n <;>
    simp only [Covers, Nat.reduceSub, Nat.reducePow, Nat.div_one, true_or, and_true,
      reduceCtorEq, false_or, Nat.isValidChar] <;>
    omega

/-- A code that a begun character covers goes on with the next six bits. -/
theorem covers_next {p : Pending} {b n : ℕ} (howed : 0 < p.owed) (hlow : 0x80 ≤ p.low)
    (hb : p.low ≤ b) (hb' : b ≤ p.high) (hhigh : p.high ≤ 0xBF) :
    Covers ⟨p.owed - 1, p.seen + 1, 64 * p.code + (b - 0x80), 0x80, 0xBF⟩ n ↔
      p.Covers n ∧ 0x80 + n / 64 ^ (p.owed - 1) % 64 = b := by
  obtain ⟨k, hk⟩ : ∃ k, p.owed = k + 1 := ⟨p.owed - 1, by omega⟩
  have hrange (m : ℕ) : 0x80 ≤ 0x80 + m % 64 ∧ 0x80 + m % 64 ≤ 0xBF := by omega
  simp only [Covers, hk, Nat.add_sub_cancel, Nat.pow_succ, ← Nat.div_div_eq_div_mul, hrange,
    and_self, or_true, and_true]
  generalize n / 64 ^ k = m
  omega

theorem concat_prefix_iff {β : Type} {xs ys : List β} {x : β} :
    xs ++ [x] <+: ys ↔ xs <+: ys ∧ ys[xs.length]? = some x := by
  constructor
  · rintro ⟨tail, rfl⟩
    simp
  · rintro ⟨⟨tail, rfl⟩, hx⟩
    rw [List.getElem?_append_right le_rfl, Nat.sub_self] at hx
    obtain ⟨tail, rfl⟩ : ∃ tail', tail = x :: tail' := by
      cases tail with
      | nil => cases hx
      | cons y tail => exact ⟨tail, by cases hx; rfl⟩
    simp

section Opens

variable {taken : List UInt8} {p p' : Pending} (hopen : p.Opens taken) (howed : 0 < p.owed)

include hopen howed

/-- How an encoding goes on. -/
theorem Opens.concat_prefix_iff (b : UInt8) (c : Char) :
    taken ++ [b] <+: utf8EncodeChar c ↔
      p.Covers c.toNat ∧ 0x80 + c.toNat / 64 ^ (p.owed - 1) % 64 = b.toNat := by
  rw [Pending.concat_prefix_iff, hopen.covers]
  refine and_congr_right fun hcovers => ?_
  have hsize := (hopen.code _ hcovers).2
  have hpos := hopen.seen_pos
  rw [← hopen.seen_eq, getElem?_utf8EncodeChar hpos (k := p.owed - 1) (by omega), Option.some_inj,
    eq_comm, eq_ofNat_iff (by omega)]
  omega

theorem Opens.next {b : UInt8} (h : p.next? b.toNat = some p') : p'.Opens (taken ++ [b]) := by
  obtain ⟨hlow, hhigh⟩ : p.low ≤ b.toNat ∧ b.toNat ≤ p.high := by
    by_contra hrange
    rw [next?, if_neg hrange] at h
    cases h
  rw [next?, if_pos ⟨hlow, hhigh⟩] at h
  cases h
  have hrange := hopen.range.resolve_left (Nat.ne_of_gt howed)
  have hcovers (n : ℕ) := covers_next (n := n) howed hrange.1 hlow hhigh hrange.2.2
  refine ⟨?_, Nat.succ_pos _, .inr (by dsimp only; omega), fun n hn => ?_, fun c => ?_⟩
  · rw [List.length_append, ← hopen.seen_eq]
    rfl
  · obtain ⟨hvalid, hcount⟩ := hopen.code n ((hcovers n).mp hn).1
    exact ⟨hvalid, by dsimp only; omega⟩
  · rw [hopen.concat_prefix_iff howed, hcovers]

theorem Opens.not_prefix_of_next? {b : UInt8} (h : p.next? b.toNat = none) (c : Char) :
    ¬ taken ++ [b] <+: utf8EncodeChar c := by
  rw [hopen.concat_prefix_iff howed]
  rintro ⟨⟨-, hrange⟩, hb⟩
  have hrange := hrange.resolve_left (Nat.ne_of_gt howed)
  rw [hb] at hrange
  rw [next?, if_pos hrange] at h
  cases h

/-- A character that is not complete can be completed. -/
theorem Opens.exists_covers : ∃ c : Char, p.Covers c.toNat := by
  obtain ⟨hlow, hle, hhigh⟩ := hopen.range.resolve_left (Nat.ne_of_gt howed)
  obtain ⟨k, hk⟩ : ∃ k, p.owed = k + 1 := ⟨p.owed - 1, by omega⟩
  have hcovers : p.Covers ((64 * p.code + (p.low - 0x80)) * 64 ^ k) := by
    rw [Covers, hk, Nat.add_sub_cancel, Nat.pow_succ, ← Nat.div_div_eq_div_mul,
      Nat.mul_div_cancel _ (Nat.pow_pos (by decide))]
    omega
  have hvalid := (hopen.code _ hcovers).1
  refine ⟨Char.ofNat ((64 * p.code + (p.low - 0x80)) * 64 ^ k), ?_⟩
  rw [toNat_ofNat hvalid]
  exact hcovers

/-- A begun character is no text yet. -/
theorem Opens.not_prefix_taken (c : Char) : ¬ utf8EncodeChar c <+: taken := by
  intro h
  obtain ⟨d, hd⟩ := hopen.exists_covers howed
  have hprefix : utf8EncodeChar c <+: utf8EncodeChar d ++ [] := by
    rw [List.append_nil]
    exact h.trans ((hopen.covers d).mpr hd)
  obtain rfl : c = d := eq_of_utf8EncodeChar_prefix hprefix
  have hle := h.length_le
  rw [length_utf8EncodeChar, (hopen.code _ hd).2, hopen.seen_eq] at hle
  omega

omit howed in
/-- A character whose bytes have all been taken. -/
theorem Opens.complete (hzero : p.owed = 0) :
    utf8EncodeChar (Char.ofNat p.code) = taken ∧ (Char.ofNat p.code).toNat = p.code := by
  have hcovers : p.Covers p.code := by
    rw [Covers, hzero, pow_zero, Nat.div_one]
    exact ⟨rfl, .inl rfl⟩
  obtain ⟨hvalid, hcount⟩ := hopen.code _ hcovers
  have hcode : (Char.ofNat p.code).toNat = p.code := toNat_ofNat hvalid
  have htaken := (hopen.covers (Char.ofNat p.code)).mpr (hcode.symm ▸ hcovers)
  refine ⟨(htaken.eq_of_length ?_).symm, hcode⟩
  rw [length_utf8EncodeChar, hcode, hcount, hzero, hopen.seen_eq, Nat.add_zero]

end Opens

theorem not_prefix_of_begin? {b : UInt8} (h : begin? b.toNat = none) (c : Char) :
    ¬ [b] <+: utf8EncodeChar c := by
  rw [singleton_prefix_iff, leadByte_eq_iff (toNat_valid c), h]
  nofun

end Pending

/-! ## Texts -/

theorem encode_cons (c : Char) (cs : List Char) :
    encode (c :: cs) = utf8EncodeChar c ++ encode cs :=
  List.flatMap_cons

theorem encode_cons_ne_nil (c : Char) (cs : List Char) : encode (c :: cs) ≠ [] := by
  intro h
  have hlength := congrArg List.length h
  have hpos := byteCount_pos c.toNat
  rw [encode_cons, List.length_append, length_utf8EncodeChar, List.length_nil] at hlength
  omega

theorem encode_injective : Function.Injective encode := by
  intro cs
  induction cs with
  | nil =>
    intro ds h
    cases ds with
    | nil => rfl
    | cons d ds => exact absurd h.symm (encode_cons_ne_nil d ds)
  | cons c cs ih =>
    intro ds h
    cases ds with
    | nil => exact absurd h (encode_cons_ne_nil c cs)
    | cons d ds =>
      rw [encode_cons, encode_cons] at h
      obtain rfl := eq_of_utf8EncodeChar_prefix ⟨_, h⟩
      rw [ih (List.append_cancel_left h)]

/-- Texts are what the strings of the language are made of. -/
theorem isText_iff (bytes : List UInt8) : IsText bytes ↔ bytes.toByteArray.IsValidUTF8 := by
  constructor
  · rintro ⟨cs, rfl⟩
    exact ⟨cs, rfl⟩
  · rintro ⟨cs, hcs⟩
    have hlist := congrArg (fun b => b.data.toList) hcs
    simp only [List.utf8Encode, List.data_toByteArray] at hlist
    exact ⟨cs, hlist.symm⟩

/-- Bytes that do not begin with a character. -/
def IsStuck (bytes : List UInt8) : Prop := ∀ c, ¬ utf8EncodeChar c <+: bytes

theorem IsStuck.isLongestText {bytes : List UInt8} (h : IsStuck bytes) :
    IsLongestText [] bytes := by
  refine ⟨⟨[], rfl⟩, List.nil_prefix, ?_⟩
  rintro _ ⟨cs, rfl⟩ hprefix
  cases cs with
  | nil => exact Nat.le_refl 0
  | cons c cs => exact absurd ((List.prefix_append _ _).trans hprefix) (h c)

theorem IsLongestText.cons {text bytes : List UInt8} (h : IsLongestText text bytes) (c : Char) :
    IsLongestText (utf8EncodeChar c ++ text) (utf8EncodeChar c ++ bytes) := by
  obtain ⟨⟨cs, rfl⟩, hbegins, hle⟩ := h
  refine ⟨⟨c :: cs, encode_cons c cs⟩, (List.prefix_append_right_inj _).mpr hbegins, ?_⟩
  rintro _ ⟨ds, rfl⟩ hprefix
  cases ds with
  | nil => exact Nat.zero_le _
  | cons d ds =>
    rw [encode_cons] at hprefix ⊢
    obtain rfl := eq_of_utf8EncodeChar_prefix ((List.prefix_append _ _).trans hprefix)
    rw [List.prefix_append_right_inj] at hprefix
    rw [List.length_append, List.length_append]
    exact Nat.add_le_add_left (hle _ ⟨ds, rfl⟩ hprefix) _

theorem le_of_mem_utf8EncodeChar {c : Char} (h : 0x80 ≤ c.toNat) :
    ∀ b ∈ utf8EncodeChar c, 0x80 ≤ b.toNat := by
  have hvalid := toNat_valid c
  rcases utf8EncodeChar_cases c with ⟨h', henc⟩ | ⟨-, hu, henc⟩ | ⟨-, hu, henc⟩ | ⟨-, henc⟩ <;>
    rw [henc] <;>
    simp only [List.forall_mem_cons, UInt8.toNat_ofNat', List.not_mem_nil, false_imp_iff,
      implies_true, and_true] <;>
    omega

/-- The only character with a line feed among its bytes is the line feed. -/
theorem count_lineFeed (c : Char) :
    (utf8EncodeChar c).count 10 = if c.toNat = 10 then 1 else 0 := by
  by_cases hascii : c.toNat < 0x80
  · have henc : utf8EncodeChar c = [UInt8.ofNat c.toNat] := by
      rcases utf8EncodeChar_cases c with ⟨-, henc⟩ | ⟨h, -⟩ | ⟨h, -⟩ | ⟨h, -⟩
      · exact henc
      all_goals omega
    have hbyte : UInt8.ofNat c.toNat = 10 ↔ c.toNat = 10 := by
      rw [eq_comm, eq_ofNat_iff (by omega), eq_comm]
      rfl
    rw [henc]
    simp only [List.count_singleton, beq_iff_eq, hbyte]
  · rw [if_neg (by omega), List.count_eq_zero]
    intro hmem
    exact absurd (le_of_mem_utf8EncodeChar (by omega) 10 hmem) (by decide)

/-! ## Decoding -/

/-- The begun character after the next byte, its first one or another one. -/
def advance (open? : Option Pending) (b : UInt8) : Option Pending :=
  match open? with
  | none => Pending.begin? b.toNat
  | some p => p.next? b.toNat

theorem decodeFrom_cons (start lineFeeds : ℕ) (chars : List Char) (open? : Option Pending)
    (b : UInt8) (bytes : List UInt8) :
    decodeFrom start lineFeeds chars open? (b :: bytes) =
      match advance open? b with
      | none => .error ⟨start, some ((open?.map Pending.seen).getD 1), lineFeeds⟩
      | some p =>
        if p.owed = 0 then
          decodeFrom (start + p.seen) (if p.code = 10 then lineFeeds + 1 else lineFeeds)
            (Char.ofNat p.code :: chars) none bytes
        else decodeFrom start lineFeeds chars (some p) bytes := by
  cases open? <;> rfl

/-- The bytes that were taken since the last complete character. -/
def Stands (taken : List UInt8) : Option Pending → Prop
  | none => taken = []
  | some p => p.Opens taken ∧ 0 < p.owed

theorem stands_nil : Stands [] none := rfl

section Stands

variable {taken : List UInt8} {open? : Option Pending} (h : Stands taken open?)

include h

theorem Stands.not_prefix (c : Char) : ¬ utf8EncodeChar c <+: taken := by
  cases open? with
  | none =>
    cases h
    intro hprefix
    have hle := hprefix.length_le
    rw [length_utf8EncodeChar] at hle
    exact absurd (byteCount_pos c.toNat) (by simpa using hle)
  | some p => exact h.1.not_prefix_taken h.2 c

theorem Stands.opens {b : UInt8} {p : Pending} (hp : advance open? b = some p) :
    p.Opens (taken ++ [b]) := by
  cases open? with
  | none =>
    cases h
    exact Pending.opens_of_begin? hp
  | some q => exact h.1.next h.2 hp

theorem Stands.refused {b : UInt8} (hnone : advance open? b = none) (c : Char) :
    ¬ taken ++ [b] <+: utf8EncodeChar c := by
  cases open? with
  | none =>
    cases h
    exact Pending.not_prefix_of_begin? hnone c
  | some q => exact h.1.not_prefix_of_next? h.2 hnone c

/-- A refused byte leaves no character that the bytes could begin with. -/
theorem Stands.isStuck {b : UInt8} (hnone : advance open? b = none) (rest : List UInt8) :
    IsStuck (taken ++ b :: rest) := by
  intro c hprefix
  have hbytes : taken ++ [b] <+: taken ++ b :: rest := ⟨rest, List.append_cons .. |>.symm⟩
  rcases Nat.lt_or_ge taken.length (utf8EncodeChar c).length with hlt | hge
  · refine h.refused hnone c (List.prefix_of_prefix_length_le hbytes hprefix ?_)
    rw [List.length_append]
    exact hlt
  · exact h.not_prefix c (List.prefix_of_prefix_length_le hprefix (List.prefix_append _ _) hge)

end Stands

/-- What a result says about the bytes from place `start` on, given the characters and the line
feeds before them. -/
def Explains (start lineFeeds : ℕ) (chars : List Char) (bytes : List UInt8) :
    Except Utf8Fault (List Char) → Prop
  | .ok cs => ∃ ds, cs = chars.reverse ++ ds ∧ encode ds = bytes
  | .error fault => ∃ text, IsLongestText text bytes ∧ text ≠ bytes ∧
      fault.validUpTo = start + text.length ∧ fault.lineFeeds = lineFeeds + text.count 10

theorem Explains.cons {start lineFeeds : ℕ} {chars : List Char} {c : Char} {bytes : List UInt8}
    {result : Except Utf8Fault (List Char)}
    (h : Explains (start + (utf8EncodeChar c).length) (lineFeeds + (utf8EncodeChar c).count 10)
      (c :: chars) bytes result) :
    Explains start lineFeeds chars (utf8EncodeChar c ++ bytes) result := by
  cases result with
  | ok cs =>
    obtain ⟨ds, rfl, rfl⟩ := h
    refine ⟨c :: ds, ?_, encode_cons c ds⟩
    rw [List.reverse_cons, List.append_assoc, List.singleton_append]
  | error fault =>
    obtain ⟨text, hlongest, hne, hstart, hfeeds⟩ := h
    refine ⟨utf8EncodeChar c ++ text, hlongest.cons c, mt List.append_cancel_left hne, ?_, ?_⟩
    · rw [hstart, List.length_append, Nat.add_assoc]
    · rw [hfeeds, List.count_append, Nat.add_assoc]

theorem explains_of_isStuck {start lineFeeds : ℕ} {chars : List Char} {bytes : List UInt8}
    (h : IsStuck bytes) (hne : bytes ≠ []) (invalid : Option ℕ) :
    Explains start lineFeeds chars bytes (.error ⟨start, invalid, lineFeeds⟩) :=
  ⟨[], h.isLongestText, hne.symm, rfl, rfl⟩

/-- The machine explains the bytes from the beginning of the open character on. -/
theorem decodeFrom_explains (start lineFeeds : ℕ) (chars : List Char) {taken : List UInt8}
    {open? : Option Pending} (h : Stands taken open?) (bytes : List UInt8) :
    Explains start lineFeeds chars (taken ++ bytes)
      (decodeFrom start lineFeeds chars open? bytes) := by
  -- each byte moves to those of the open character, or completes it
  induction bytes generalizing start lineFeeds chars taken open? with
  | nil =>
    cases open? with
    | none =>
      cases h
      exact ⟨[], (List.append_nil _).symm, rfl⟩
    | some p =>
      rw [List.append_nil, decodeFrom]
      refine explains_of_isStuck h.not_prefix ?_ none
      rintro rfl
      exact absurd h.1.seen_pos (by rw [h.1.seen_eq]; exact Nat.lt_irrefl 0)
  | cons b bytes ih =>
    rw [decodeFrom_cons]
    cases hp : advance open? b with
    | none => exact explains_of_isStuck (h.isStuck hp bytes) (by simp) _
    | some p =>
      have hopen := h.opens hp
      rw [List.append_cons]
      dsimp only
      split
      · rename_i hzero
        obtain ⟨hbytes, hcode⟩ := hopen.complete hzero
        have hseen : p.seen = (utf8EncodeChar (Char.ofNat p.code)).length := by
          rw [hbytes, hopen.seen_eq]
        have hfeeds : (if p.code = 10 then lineFeeds + 1 else lineFeeds) =
            lineFeeds + (utf8EncodeChar (Char.ofNat p.code)).count 10 := by
          rw [count_lineFeed, hcode]
          split <;> rfl
        rw [← hbytes, hseen, hfeeds]
        exact (ih _ _ _ stands_nil).cons
      · rename_i howed
        exact ih start lineFeeds chars ⟨hopen, Nat.pos_of_ne_zero howed⟩

theorem decode_explains (bytes : List UInt8) : Explains 0 0 [] bytes (decode bytes) :=
  decodeFrom_explains 0 0 [] stands_nil bytes

/-- **Decoding takes every text.** -/
theorem decode_encode (cs : List Char) : decode (encode cs) = .ok cs := by
  have hexplains := decode_explains (encode cs)
  cases hdecode : decode (encode cs) with
  | ok cs' =>
    rw [hdecode] at hexplains
    obtain ⟨ds, rfl, hds⟩ := hexplains
    rw [encode_injective hds]
  | error fault =>
    rw [hdecode] at hexplains
    obtain ⟨text, hlongest, hne, -⟩ := hexplains
    have hle := hlongest.length_le _ ⟨cs, rfl⟩ List.prefix_rfl
    exact absurd (hlongest.begins.eq_of_length_le hle) hne

/-- **A fault stands behind the longest text that the bytes begin with.** -/
theorem decode_error {bytes : List UInt8} (h : ¬ IsText bytes) :
    ∃ fault text, decode bytes = .error fault ∧ IsLongestText text bytes ∧
      fault.validUpTo = text.length ∧ fault.lineFeeds = text.count 10 := by
  have hexplains := decode_explains bytes
  cases hdecode : decode bytes with
  | ok cs =>
    rw [hdecode] at hexplains
    obtain ⟨ds, -, hds⟩ := hexplains
    exact absurd ⟨ds, hds⟩ h
  | error fault =>
    rw [hdecode] at hexplains
    obtain ⟨text, hlongest, -, hstart, hfeeds⟩ := hexplains
    exact ⟨fault, text, rfl, hlongest, by omega, by omega⟩

theorem not_isText_of_decode {bytes : List UInt8} {fault : Utf8Fault}
    (h : decode bytes = .error fault) : ¬ IsText bytes := by
  rintro ⟨cs, rfl⟩
  rw [decode_encode] at h
  cases h

end GyroDelay.Text

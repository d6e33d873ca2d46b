/-!
# Decoding UTF-8

A machine that takes one byte at a time. It refuses a byte that no valid sequence has at
that place, so the part in front of the refused character is the longest valid prefix.
-/

namespace GyroDelay.Text

/-- Why bytes are not valid UTF-8. -/
structure Utf8Fault where
  /-- The length of the longest valid prefix. -/
  validUpTo : Nat
  /-- How many bytes begin like a character and go wrong, or `none` if the input ends
  inside a character. -/
  invalid : Option Nat
  /-- How many line feeds the longest valid prefix holds. -/
  lineFeeds : Nat
deriving Repr, DecidableEq

/-- The text of a decoding fault. -/
def Utf8Fault.message (f : Utf8Fault) : String :=
  let start := f.validUpTo
  match f.invalid with
  | some count => s!"invalid utf-8 sequence of {count} bytes from index {start}"
  | none => s!"incomplete utf-8 byte sequence from index {start}"

/-- A character that has begun: the bytes that it still needs, those that it has, its
code so far and the range of the next byte. -/
structure Pending where
  /-- How many bytes are still to come. -/
  owed : Nat
  /-- How many bytes have been taken. -/
  seen : Nat
  /-- The bits that have been taken. -/
  code : Nat
  /-- The least value of the next byte. -/
  low : Nat
  /-- The greatest value of the next byte. -/
  high : Nat

/-- What the first byte of a character announces; `none` if no character begins so. -/
def Pending.begin? (b : Nat) : Option Pending :=
  if b < 0x80 then some ⟨0, 1, b, 0, 0⟩
  else if b < 0xC2 then none
  else if b < 0xE0 then some ⟨1, 1, b - 0xC0, 0x80, 0xBF⟩
  else if b = 0xE0 then some ⟨2, 1, 0, 0xA0, 0xBF⟩
  else if b = 0xED then some ⟨2, 1, 0xD, 0x80, 0x9F⟩
  else if b < 0xF0 then some ⟨2, 1, b - 0xE0, 0x80, 0xBF⟩
  else if b = 0xF0 then some ⟨3, 1, 0, 0x90, 0xBF⟩
  else if b < 0xF4 then some ⟨3, 1, b - 0xF0, 0x80, 0xBF⟩
  else if b = 0xF4 then some ⟨3, 1, 4, 0x80, 0x8F⟩
  else none

/-- A begun character with its next byte; `none` if the byte is out of range. -/
def Pending.next? (p : Pending) (b : Nat) : Option Pending :=
  if p.low ≤ b ∧ b ≤ p.high then
    some ⟨p.owed - 1, p.seen + 1, 64 * p.code + (b - 0x80), 0x80, 0xBF⟩
  else none

/-- Decodes the rest of a text. `start` is where the character `open?` has begun, or
where the next one begins; `chars` are the characters so far, the last one first. -/
def decodeFrom (start : Nat) (lineFeeds : Nat) (chars : List Char) (open? : Option Pending) :
    List UInt8 → Except Utf8Fault (List Char)
  | [] =>
    match open? with
    | none => .ok chars.reverse
    | some _ => .error ⟨start, none, lineFeeds⟩
  | b :: bytes =>
    let advanced := match open? with
      | none => Pending.begin? b.toNat
      | some p => p.next? b.toNat
    match advanced with
    | none => .error ⟨start, some ((open?.map Pending.seen).getD 1), lineFeeds⟩
    | some p =>
      if p.owed = 0 then
        decodeFrom (start + p.seen) (if p.code = 10 then lineFeeds + 1 else lineFeeds)
          (Char.ofNat p.code :: chars) none bytes
      else decodeFrom start lineFeeds chars (some p) bytes

/-- The characters of UTF-8 bytes, or the first fault. -/
def decode (bytes : List UInt8) : Except Utf8Fault (List Char) :=
  decodeFrom 0 0 [] none bytes

end GyroDelay.Text

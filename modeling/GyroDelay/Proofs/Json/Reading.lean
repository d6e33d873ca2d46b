import GyroDelay.Json.Tree
import GyroDelay.Proofs.Decimal
import GyroDelay.Proofs.Text

/-!
# Reading plain JSON values

A string is read back from its escapes, whatever its characters are (`readString_flatMap`): each
character is one unit, so no surrogates have to be joined. A number is read alike whatever follows
it, as long as the following text does not go on with the number (`EndsNumeral.readNumeral_append`),
and the digits of an integer of 64 bits are read as that integer (`toInt?_of_isUnsigned`,
`toInt?_of_isSigned`).
-/

namespace GyroDelay.Json

/-! ## Strings -/

/-- Characters with an escape of their own. -/
theorem readUnits_simple {c e : Char} (hescape : simpleEscape? e = some c) (hu : e ≠ 'u')
    (units : List StringUnit) (rest : List Char) :
    readUnits units ('\\' :: e :: rest) = readUnits (.char c :: units) rest := by
  rw [readUnits]
  · rw [hescape]
  · rintro a b c d e rfl
    exact absurd rfl hu

theorem readUnits_hex4 {c : Char} (h : c.toNat < 0x20) (units : List StringUnit)
    (rest : List Char) :
    readUnits units ('\\' :: 'u' :: (Text.hex4 false c.toNat ++ rest)) =
      readUnits (.char c :: units) rest := by
  have hcode := Text.ofBase?_hex4 false (n := c.toNat) (by omega)
  have hchar : StringUnit.ofCode c.toNat = .char c := by
    rw [StringUnit.ofCode, if_neg (by omega), Char.ofNat_toNat]
  unfold Text.hex4 at hcode ⊢
  simp only [List.map_cons, List.map_nil, List.cons_append, List.nil_append] at hcode ⊢
  rw [readUnits, hcode]
  dsimp only
  rw [hchar]

theorem readUnits_escapeChar (c : Char) (units : List StringUnit) (rest : List Char) :
    readUnits units (escapeChar c ++ rest) = readUnits (.char c :: units) rest := by
  unfold escapeChar
  split
  · exact readUnits_simple rfl (by decide) units rest
  · exact readUnits_simple rfl (by decide) units rest
  · exact readUnits_simple rfl (by decide) units rest
  · exact readUnits_simple rfl (by decide) units rest
  · exact readUnits_simple rfl (by decide) units rest
  · exact readUnits_simple rfl (by decide) units rest
  · exact readUnits_simple rfl (by decide) units rest
  · rename_i hquote hbackslash _ _ _ _ _
    split
    · rename_i hcontrol
      exact readUnits_hex4 hcontrol units rest
    · rename_i hplain
      rw [List.singleton_append, readUnits, if_neg]
      · simpa using ⟨hbackslash, not_lt.mp hplain⟩
      · exact hquote
      · rintro a b c d e rfl
        exact absurd rfl hbackslash
      · rintro a b rfl
        exact absurd rfl hbackslash

theorem readUnits_flatMap (cs rest : List Char) (units : List StringUnit) :
    readUnits units (cs.flatMap escapeChar ++ '"' :: rest) =
      some (units.reverse ++ cs.map .char, rest) := by
  induction cs generalizing units with
  | nil => rw [List.flatMap_nil, List.nil_append, readUnits, List.map_nil, List.append_nil]
  | cons c cs ih =>
    rw [List.flatMap_cons, List.append_assoc, readUnits_escapeChar, ih, List.reverse_cons,
      List.append_assoc]
    rfl

theorem joinUnits_map_char (cs : List Char) : joinUnits (cs.map .char) = some cs := by
  induction cs with
  | nil => rfl
  | cons c cs ih => rw [List.map_cons, joinUnits, ih, Option.map_some]

/-- **A text in quotes reads back**, whatever its characters are. -/
theorem readString_flatMap (s : String) (rest : List Char) :
    readString (s.toList.flatMap escapeChar ++ '"' :: rest) = some (some s, rest) := by
  rw [readString, readUnits_flatMap, Option.map_some]
  dsimp only
  rw [List.reverse_nil, List.nil_append, joinUnits_map_char, Option.map_some,
    String.ofList_toList]

theorem toList_renderText (s : String) :
    (renderText s).toList = '"' :: (s.toList.flatMap escapeChar ++ ['"']) := by
  rw [renderText, String.toList_ofList]
  rfl

theorem readString_renderText (s : String) (rest : List Char) :
    ∃ tail, (renderText s).toList ++ rest = '"' :: tail ∧
      readString tail = some (some s, rest) := by
  refine ⟨s.toList.flatMap escapeChar ++ '"' :: rest, ?_, readString_flatMap s rest⟩
  rw [toList_renderText, List.cons_append, List.append_assoc]
  rfl

/-! ## Numbers and what follows them -/

/-- Whether a text begins with no character that could go on with a number. -/
def EndsNumeral (rest : List Char) : Prop :=
  ∀ c ∈ rest.head?, c.isDigit = false ∧ c ∉ ['.', 'e', 'E', '+', '-']

/-- A minus sign, if there is one, and what follows it. -/
def splitMinus : List Char → Bool × List Char
  | '-' :: cs => (true, cs)
  | cs => (false, cs)

/-- Reads a number behind its sign. -/
def readMagnitude (negative : Bool) (cs : List Char) : Option (Numeral × List Char) := do
  let (whole, cs) ← readWhole cs
  let (fraction, cs) ← readFraction cs
  let (exponent, cs) ← readExponent cs
  return (⟨negative, whole, fraction, exponent⟩, cs)

theorem readNumeral_eq (cs : List Char) :
    readNumeral cs = readMagnitude (splitMinus cs).1 (splitMinus cs).2 := rfl

namespace EndsNumeral

variable {rest : List Char} (h : EndsNumeral rest) (cs : List Char)

include h

theorem ne {c : Char} (hc : c ∈ ['.', 'e', 'E', '+', '-']) : ∀ tail, rest ≠ c :: tail := by
  rintro tail rfl
  exact (h c rfl).2 hc

theorem readWhole_append :
    readWhole (cs ++ rest) = (readWhole cs).map fun r => (r.1, r.2 ++ rest) := by
  have hdigit : ∀ c ∈ rest.head?, c.isDigit = false := fun c hc => (h c hc).1
  unfold readWhole
  rw [Text.takeWhile_append_stop hdigit, Text.dropWhile_append_stop hdigit]
  dsimp only
  split <;> rfl

theorem readFraction_append :
    readFraction (cs ++ rest) = (readFraction cs).map fun r => (r.1, r.2 ++ rest) := by
  have hdigit : ∀ c ∈ rest.head?, c.isDigit = false := fun c hc => (h c hc).1
  cases cs with
  | nil =>
    rw [List.nil_append, readFraction, readFraction]
    · rfl
    · nofun
    · exact h.ne (by decide)
  | cons c cs =>
    by_cases hc : c = '.'
    · subst hc
      rw [List.cons_append, readFraction, readFraction, Text.takeWhile_append_stop hdigit,
        Text.dropWhile_append_stop hdigit]
      split <;> rfl
    · rw [List.cons_append, readFraction, readFraction]
      · rfl
      · rintro _ heq
        exact hc (List.cons.inj heq).1
      · rintro _ heq
        exact hc (List.cons.inj heq).1

theorem splitSign_append :
    Decimal.splitSign (cs ++ rest) =
      ((Decimal.splitSign cs).1, (Decimal.splitSign cs).2 ++ rest) := by
  cases cs with
  | nil =>
    rw [List.nil_append, Decimal.splitSign]
    · rfl
    · exact h.ne (by decide)
    · exact h.ne (by decide)
  | cons c cs =>
    by_cases hminus : c = '-'
    · subst hminus
      rfl
    · by_cases hplus : c = '+'
      · subst hplus
        rfl
      · simp [Decimal.splitSign, hminus, hplus]

theorem readExponent_append :
    readExponent (cs ++ rest) = (readExponent cs).map fun r => (r.1, r.2 ++ rest) := by
  have hdigit : ∀ c ∈ rest.head?, c.isDigit = false := fun c hc => (h c hc).1
  cases cs with
  | nil =>
    cases rest with
    | nil => rfl
    | cons c rest =>
      have he : c ≠ 'e' := fun heq => h.ne (by decide) rest (congrArg (· :: rest) heq)
      have hE : c ≠ 'E' := fun heq => h.ne (by decide) rest (congrArg (· :: rest) heq)
      simp [readExponent, he, hE]
  | cons c cs =>
    rw [List.cons_append, readExponent, readExponent, h.splitSign_append]
    dsimp only
    rw [Text.takeWhile_append_stop hdigit, Text.dropWhile_append_stop hdigit]
    split
    · split <;> rfl
    · rfl

theorem splitMinus_append :
    splitMinus (cs ++ rest) = ((splitMinus cs).1, (splitMinus cs).2 ++ rest) := by
  cases cs with
  | nil =>
    rw [List.nil_append, splitMinus]
    · rfl
    · exact h.ne (by decide)
  | cons c cs =>
    by_cases hminus : c = '-'
    · subst hminus
      rfl
    · simp [splitMinus, hminus]

/-- A number is read alike whatever follows it. -/
theorem readNumeral_append :
    readNumeral (cs ++ rest) = (readNumeral cs).map fun r => (r.1, r.2 ++ rest) := by
  rw [readNumeral_eq, readNumeral_eq, h.splitMinus_append, readMagnitude, readMagnitude,
    h.readWhole_append]
  dsimp only
  cases readWhole (splitMinus cs).2 with
  | none => rfl
  | some whole =>
    simp only [Option.map_some, Option.bind_eq_bind, Option.bind_some]
    rw [h.readFraction_append]
    cases readFraction whole.2 with
    | none => rfl
    | some fraction =>
      simp only [Option.map_some, Option.bind_some]
      rw [h.readExponent_append]
      cases readExponent fraction.2 with
      | none => rfl
      | some exponent => rfl

end EndsNumeral

theorem EndsNumeral.nil : EndsNumeral [] := nofun

theorem EndsNumeral.cons {c : Char} (h : c.isDigit = false ∧ c ∉ ['.', 'e', 'E', '+', '-'])
    (rest : List Char) : EndsNumeral (c :: rest) := by
  rintro _ ⟨⟩
  exact h

theorem EndsNumeral.blanks {blanks : List Char} (h : ∀ c ∈ blanks, isSpace c = true)
    {rest : List Char} (hrest : EndsNumeral rest) : EndsNumeral (blanks ++ rest) := by
  cases blanks with
  | nil => exact hrest
  | cons c blanks =>
    refine .cons ?_ _
    have hc := h c List.mem_cons_self
    simp only [isSpace, Bool.or_eq_true, decide_eq_true_eq] at hc
    obtain ((rfl | rfl) | rfl) | rfl := hc <;> decide

theorem exists_of_readNumeral {cs : List Char} {r : Numeral × List Char}
    (h : readNumeral cs = some r) : ∃ c tail, cs = c :: tail ∧ (c.isDigit = true ∨ c = '-') := by
  cases cs with
  | nil => cases h
  | cons c tail =>
    refine ⟨c, tail, rfl, ?_⟩
    by_contra hc
    obtain ⟨hdigit, hminus⟩ := not_or.mp hc
    have hwhole : readWhole (c :: tail) = none := by
      rw [readWhole, List.takeWhile_cons_of_neg hdigit]
    have hsign : splitMinus (c :: tail) = (false, c :: tail) := by simp [splitMinus, hminus]
    rw [readNumeral_eq, hsign, readMagnitude, hwhole] at h
    cases h

/-! ## Integers -/

theorem readMagnitude_of_digits (negative : Bool) {ds : List Char} (hne : ds ≠ [])
    (hdigit : ∀ c ∈ ds, c.isDigit = true) (hzero : ∀ tail, ds = '0' :: tail → tail = []) :
    readMagnitude negative ds = some (⟨negative, ds, [], none⟩, []) := by
  have hwhole : readWhole ds = some (ds, []) := by
    unfold readWhole
    rw [List.takeWhile_eq_self_iff.mpr hdigit, List.dropWhile_eq_nil_iff.mpr hdigit]
    dsimp only
    split
    · contradiction
    · cases hzero _ rfl
    · rfl
  rw [readMagnitude, hwhole]
  rfl

theorem readMagnitude_toDigits (negative : Bool) (n : ℕ) :
    readMagnitude negative (Nat.toDigits 10 n) =
      some (⟨negative, Nat.toDigits 10 n, [], none⟩, []) :=
  readMagnitude_of_digits negative Nat.toDigits_ne_nil
    (fun _ hc => Decimal.isDigit_of_mem_toDigits hc) fun _ h => Decimal.toDigits_eq_zero_cons h

theorem digits_toDigits (negative : Bool) (n : ℕ) :
    (Numeral.mk negative (Nat.toDigits 10 n) [] none).digits = n := by
  rw [Numeral.digits, List.append_nil]
  exact Decimal.ofDigits_toDigits n

theorem toInt?_of_isUnsigned {n : ℕ} (h : isUnsigned 64 (n : ℤ) = true) :
    (Numeral.mk false (Nat.toDigits 10 n) [] none).toInt? = some (n : ℤ) := by
  rw [Numeral.toInt?, digits_toDigits]
  simp [Numeral.isInteger, h]

theorem toInt?_of_isSigned {n : ℕ} (h : isSigned 64 (-((n + 1 : ℕ) : ℤ)) = true) :
    (Numeral.mk true (Nat.toDigits 10 (n + 1)) [] none).toInt? = some (-((n + 1 : ℕ) : ℤ)) := by
  rw [Numeral.toInt?, digits_toDigits]
  simp only [Numeral.isInteger, h]
  simp

theorem splitMinus_toDigits (n : ℕ) :
    splitMinus (Nat.toDigits 10 n) = (false, Nat.toDigits 10 n) := by
  rw [splitMinus]
  intro tail heq
  have hdigit : '-'.isDigit = true :=
    @Decimal.isDigit_of_mem_toDigits n _ (heq ▸ List.mem_cons_self)
  exact absurd hdigit (by decide)

theorem toList_natCast (n : ℕ) : (toString (n : ℤ)).toList = Nat.toDigits 10 n := by
  rw [Int.toString_eq_repr]
  change n.repr.toList = _
  exact Nat.toList_repr

theorem isUnsigned_of_isSigned {n : ℕ} (h : isSigned 64 (n : ℤ) = true) :
    isUnsigned 64 (n : ℤ) = true := by
  simp only [isSigned, isUnsigned, Bool.and_eq_true, decide_eq_true_eq] at h ⊢
  have hwords : wordCount (64 - 1) ≤ wordCount 64 :=
    Nat.pow_le_pow_right two_pos (Nat.sub_le 64 1)
  omega

end GyroDelay.Json

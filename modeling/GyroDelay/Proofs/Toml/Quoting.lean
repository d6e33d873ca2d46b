import GyroDelay.Proofs.Text
import GyroDelay.Toml.Writer

/-!
# Quoted texts are read back

Whatever its characters are and in whichever style it is written, a quoted text is read back
(`readQuoted_quote`), as long as no quote follows it.

On one line every quote is escaped (`readBasic_escaped`) or there is none (`readLiteral_append`).
Over several lines up to two quotes in a row stand for themselves, and the three closing ones may
follow right behind them, so the quotes in front of a character are counted and read together with
it (`ClosedByThree`, `readBasicLines_escaped`, `readLiteralLines_append`).
-/

namespace GyroDelay.Toml

/-! ## Characters -/

/-- A character other than a quote in an escaped text, where no line feed stands for itself. -/
def writtenChar (c : Char) : List Char :=
  match c with
  | '\x08' => ['\\', 'b']
  | '\t' => ['\\', 't']
  | '\n' => ['\\', 'n']
  | '\x0c' => ['\\', 'f']
  | '\r' => ['\\', 'r']
  | '\\' => ['\\', '\\']
  | c => if c.toNat < 0x20 || c.toNat = 0x7F then '\\' :: 'u' :: Text.hex4 true c.toNat else [c]

theorem escaped_cons {lines : Bool} {c : Char} (hquote : c ≠ '"')
    (hbreak : c = '\n' → lines = false) (quotes : ℕ) (cs : List Char) :
    escaped lines quotes (c :: cs) = writtenChar c ++ escaped lines 0 cs := by
  have hlines : ¬ ((decide (c = '\n') && lines) = true) := by
    intro h
    rw [Bool.and_eq_true, decide_eq_true_eq] at h
    rw [hbreak h.1] at h
    exact Bool.false_ne_true h.2
  rw [escaped.eq_def]
  dsimp only
  rw [if_neg hquote, if_neg hlines]
  rfl

theorem hexChar?_hex4 {c : Char} (h : c.toNat < 0xD800) :
    hexChar? (Text.hex4 true c.toNat) = some c := by
  rw [hexChar?, Text.ofBase?_hex4 true (by omega), Option.bind_eq_bind, Option.bind_some,
    if_pos (.inl h), Char.ofNat_toNat]

/-- What stands for a character other than a quote: itself if it is printable, or one of two
kinds of escapes. -/
theorem writtenChar_cases {c : Char} (hquote : c ≠ '"') :
    (writtenChar c = [c] ∧ isPrintable c = true ∧ c ≠ '\\' ∧ c ≠ '\n' ∧ c ≠ '\r') ∨
    (∃ e, writtenChar c = ['\\', e] ∧ escape? e = some c ∧ e ≠ 'u' ∧ e ≠ 'U' ∧ e ≠ 'x') ∨
    (writtenChar c = '\\' :: 'u' :: Text.hex4 true c.toNat ∧
      hexChar? (Text.hex4 true c.toNat) = some c) := by
  unfold writtenChar
  split
  · exact .inr (.inl ⟨'b', rfl, rfl, by decide⟩)
  · exact .inr (.inl ⟨'t', rfl, rfl, by decide⟩)
  · exact .inr (.inl ⟨'n', rfl, rfl, by decide⟩)
  · exact .inr (.inl ⟨'f', rfl, rfl, by decide⟩)
  · exact .inr (.inl ⟨'r', rfl, rfl, by decide⟩)
  · exact .inr (.inl ⟨'\\', rfl, rfl, by decide⟩)
  · rename_i hbackspace htab hbreak hfeed hreturn hbackslash
    split
    · rename_i hcontrol
      rw [Bool.or_eq_true, decide_eq_true_eq, decide_eq_true_eq] at hcontrol
      exact .inr (.inr ⟨rfl, hexChar?_hex4 (by omega)⟩)
    · rename_i hplain
      rw [Bool.or_eq_true, decide_eq_true_eq, decide_eq_true_eq, not_or, not_lt] at hplain
      refine .inl ⟨rfl, ?_, hbackslash, hbreak, hreturn⟩
      simp [isPrintable, hplain]

/-! ## Basic strings -/

theorem readBasic_writtenChar {c : Char} (hquote : c ≠ '"') (done rest : List Char) :
    readBasic done (writtenChar c ++ rest) = readBasic (c :: done) rest := by
  obtain ⟨hw, hprintable, hbackslash, -⟩ | ⟨e, hw, hescape, hu, hU, hx⟩ | ⟨hw, hhex⟩ :=
    writtenChar_cases hquote
  · rw [hw, List.singleton_append, readBasic, if_pos (by simp [hprintable, hbackslash])]
    · exact hquote
    all_goals
      intros
      contradiction
  · rw [hw, List.cons_append, List.singleton_append, readBasic, hescape]
    all_goals
      intros
      contradiction
  · unfold Text.hex4 at hw hhex
    rw [hw]
    simp only [List.map_cons, List.map_nil, List.cons_append, List.nil_append] at hhex ⊢
    rw [readBasic, hhex]

/-- A text with all its quotes escaped is read up to the closing quote. -/
theorem readBasic_escaped (cs done rest : List Char) (quotes : ℕ) :
    readBasic done (escaped false quotes cs ++ '"' :: rest) = some (done.reverse ++ cs, rest) := by
  induction cs generalizing done quotes with
  | nil => rw [escaped, List.nil_append, readBasic, List.append_nil]
  | cons c cs ih =>
    have hdone : (c :: done).reverse ++ cs = done.reverse ++ c :: cs := by
      rw [List.reverse_cons, List.append_assoc]
      rfl
    by_cases hquote : c = '"'
    · subst hquote
      have hescaped : escaped false quotes ('"' :: cs) = '\\' :: '"' :: escaped false 0 cs := by
        simp [escaped]
      rw [hescaped, List.cons_append, List.cons_append, readBasic, escape?]
      · dsimp only
        rw [ih, hdone]
      all_goals
        intros
        contradiction
    · rw [escaped_cons hquote fun _ => rfl, List.append_assoc, readBasic_writtenChar hquote, ih,
        hdone]

/-! ## Rows of quotes -/

/-- A reader of texts between three quotes: up to two more quotes in front of the closing ones
belong to the text, and so does a quote that does not begin a row of three. -/
structure ClosedByThree (quote : Char)
    (read : List Char → List Char → Option (List Char × List Char)) : Prop where
  five : ∀ done rest, read done (quote :: quote :: quote :: quote :: quote :: rest) =
    some ((quote :: quote :: done).reverse, rest)
  four : ∀ done rest, (∀ tail, rest ≠ quote :: tail) →
    read done (quote :: quote :: quote :: quote :: rest) = some ((quote :: done).reverse, rest)
  three : ∀ done rest, (∀ tail, rest ≠ quote :: tail) →
    read done (quote :: quote :: quote :: rest) = some (done.reverse, rest)
  single : ∀ done rest, (∀ tail, rest ≠ quote :: quote :: tail) →
    read done (quote :: rest) = read (quote :: done) rest

namespace ClosedByThree

variable {quote : Char} {read : List Char → List Char → Option (List Char × List Char)}
  (h : ClosedByThree quote read) {quotes : ℕ} (hquotes : quotes ≤ 2) (done : List Char)
  {rest : List Char}

include h hquotes

/-- Quotes in front of the closing ones. -/
theorem close (hrest : ∀ tail, rest ≠ quote :: tail) :
    read done (List.replicate quotes quote ++ quote :: quote :: quote :: rest) =
      some (done.reverse ++ List.replicate quotes quote, rest) := by
  obtain rfl | rfl | rfl : quotes = 0 ∨ quotes = 1 ∨ quotes = 2 := by omega
  · rw [List.replicate_zero, List.nil_append, h.three done rest hrest, List.append_nil]
  · refine (h.four done rest hrest).trans ?_
    rw [List.reverse_cons]
    rfl
  · refine (h.five done rest).trans ?_
    rw [List.reverse_cons, List.reverse_cons, List.append_assoc]
    rfl

/-- Quotes in front of another character. -/
theorem pass {c : Char} (hc : c ≠ quote) :
    read done (List.replicate quotes quote ++ c :: rest) =
      read (List.replicate quotes quote ++ done) (c :: rest) := by
  have hone : ∀ tail, c :: rest ≠ quote :: quote :: tail := by
    rintro tail heq
    exact hc (List.cons.inj heq).1
  have htwo : ∀ tail, quote :: c :: rest ≠ quote :: quote :: tail := by
    rintro tail heq
    exact hc (List.cons.inj (List.cons.inj heq).2).1
  obtain rfl | rfl | rfl : quotes = 0 ∨ quotes = 1 ∨ quotes = 2 := by omega
  · rfl
  · exact h.single done _ hone
  · exact (h.single done _ htwo).trans (h.single _ _ hone)

end ClosedByThree

theorem closedByThree_basic : ClosedByThree '"' (readBasicLines false) where
  five := by
    intro done rest
    rw [readBasicLines]
  four := by
    intro done rest hrest
    rw [readBasicLines]
    exact fun tail heq => hrest tail heq
  three := by
    intro done rest hrest
    rw [readBasicLines]
    · rintro tail rfl
      exact hrest _ rfl
    · rintro tail rfl
      exact hrest _ rfl
  single := by
    intro done rest hrest
    rw [readBasicLines]
    · rfl
    · exact fun tail _ heq => hrest _ heq
    · exact fun tail _ heq => hrest _ heq
    · exact fun tail _ heq => hrest _ heq
    all_goals
      intros
      contradiction

theorem closedByThree_literal : ClosedByThree '\'' readLiteralLines where
  five := by
    intro done rest
    rw [readLiteralLines]
  four := by
    intro done rest hrest
    rw [readLiteralLines]
    exact fun tail heq => hrest tail heq
  three := by
    intro done rest hrest
    rw [readLiteralLines]
    · rintro tail rfl
      exact hrest _ rfl
    · rintro tail rfl
      exact hrest _ rfl
  single := by
    intro done rest hrest
    rw [readLiteralLines]
    · rfl
    · exact fun tail _ heq => hrest _ heq
    · exact fun tail _ heq => hrest _ heq
    · exact fun tail _ heq => hrest _ heq
    all_goals
      intros
      contradiction

/-! ## Basic strings over several lines -/

theorem readBasicLines_writtenChar {c : Char} (hquote : c ≠ '"') (done rest : List Char) :
    readBasicLines false done (writtenChar c ++ rest) = readBasicLines false (c :: done) rest := by
  obtain ⟨hw, hprintable, hbackslash, hbreak, hreturn⟩ | ⟨e, hw, hescape, hu, hU, hx⟩ |
    ⟨hw, hhex⟩ := writtenChar_cases hquote
  · rw [hw, List.singleton_append, readBasicLines]
    · simp [hprintable, hbackslash]
    all_goals
      intros
      contradiction
  · rw [hw, List.cons_append, List.singleton_append, readBasicLines, hescape]
    all_goals
      intros
      contradiction
  · unfold Text.hex4 at hw hhex
    rw [hw]
    simp only [List.map_cons, List.map_nil, List.cons_append, List.nil_append] at hhex ⊢
    rw [readBasicLines, hhex]

/-- What is written for a character other than a quote begins with no quote, and with a line break
only if it is one. -/
theorem exists_writtenChar {c : Char} (hquote : c ≠ '"') :
    ∃ d tail, writtenChar c = d :: tail ∧ d ≠ '"' ∧ d ≠ '\n' ∧ d ≠ '\r' := by
  obtain ⟨hw, -, -, hbreak, hreturn⟩ | ⟨e, hw, -⟩ | ⟨hw, -⟩ := writtenChar_cases hquote
  · exact ⟨c, [], hw, hquote, hbreak, hreturn⟩
  · exact ⟨'\\', [e], hw, by decide⟩
  · exact ⟨'\\', _, hw, by decide⟩

/-- A text with every third quote in a row escaped is read up to the three closing quotes. The
quotes in front of the rest of the text are read together with what follows them, since the
closing ones may follow. -/
theorem readBasicLines_escaped (cs done : List Char) {rest : List Char}
    (hrest : ∀ tail, rest ≠ '"' :: tail) {quotes : ℕ} (hquotes : quotes ≤ 2) :
    readBasicLines false done (List.replicate quotes '"' ++
      (escaped true quotes cs ++ '"' :: '"' :: '"' :: rest)) =
      some (done.reverse ++ List.replicate quotes '"' ++ cs, rest) := by
  induction cs generalizing done quotes with
  | nil =>
    rw [escaped, List.nil_append, List.append_nil]
    exact closedByThree_basic.close hquotes done hrest
  | cons c cs ih =>
    -- once a character other than a quote is read, no quotes are pending any more
    have hnext : readBasicLines false (c :: (List.replicate quotes '"' ++ done))
        (escaped true 0 cs ++ '"' :: '"' :: '"' :: rest) =
        some (done.reverse ++ List.replicate quotes '"' ++ c :: cs, rest) := by
      have h := ih (c :: (List.replicate quotes '"' ++ done)) (Nat.zero_le 2)
      rw [List.replicate_zero, List.nil_append] at h
      rw [h]
      simp
    by_cases hquote : c = '"'
    · subst hquote
      by_cases hmore : quotes < 2
      · have hescaped : escaped true quotes ('"' :: cs) = '"' :: escaped true (quotes + 1) cs := by
          simp [escaped, hmore]
        have hreplicate : List.replicate quotes '"' ++ ('"' :: escaped true (quotes + 1) cs ++
            '"' :: '"' :: '"' :: rest) = List.replicate (quotes + 1) '"' ++
              (escaped true (quotes + 1) cs ++ '"' :: '"' :: '"' :: rest) := by
          rw [List.replicate_succ', List.append_assoc]
          rfl
        rw [hescaped, hreplicate, ih done (by omega), List.replicate_succ']
        simp only [List.append_assoc, List.singleton_append]
      · have hescaped : escaped true quotes ('"' :: cs) = '\\' :: '"' :: escaped true 0 cs := by
          simp [escaped, hmore]
        rw [hescaped, List.cons_append, closedByThree_basic.pass hquotes done (by decide),
          List.cons_append, readBasicLines, escape?]
        · exact hnext
        all_goals
          intros
          contradiction
    · by_cases hbreak : c = '\n'
      · subst hbreak
        have hescaped : escaped true quotes ('\n' :: cs) = '\n' :: escaped true 0 cs := by
          simp [escaped]
        rw [hescaped, List.cons_append, closedByThree_basic.pass hquotes done (by decide),
          readBasicLines]
        exact hnext
      · obtain ⟨d, tail, hwritten, hd, -⟩ := exists_writtenChar hquote
        rw [escaped_cons hquote fun heq => absurd heq hbreak, List.append_assoc, hwritten,
          List.cons_append, closedByThree_basic.pass hquotes done hd, ← List.cons_append,
          ← hwritten, readBasicLines_writtenChar hquote]
        exact hnext

/-! ## Literal strings -/

theorem le_longestRun (c : Char) (current best : ℕ) (cs : List Char) :
    best ≤ longestRun c current best cs := by
  induction cs generalizing current best with
  | nil => rw [longestRun]
  | cons d cs ih =>
    rw [longestRun]
    split
    · exact (Nat.le_max_left _ _).trans (ih _ _)
    · exact ih _ _

theorem not_mem_of_longestRun {c : Char} {current best : ℕ} {cs : List Char}
    (h : longestRun c current best cs = 0) : c ∉ cs := by
  induction cs generalizing current best with
  | nil => exact List.not_mem_nil
  | cons d cs ih =>
    rw [longestRun] at h
    split at h
    · have hle := le_longestRun c (current + 1) (max best (current + 1)) cs
      omega
    · rename_i hne
      rw [List.mem_cons, not_or]
      exact ⟨Ne.symm hne, ih h⟩

theorem isPrintable_of_needsEscape {c : Char} (h : needsEscape c = false) (hbreak : c ≠ '\n') :
    isPrintable c = true := by
  unfold needsEscape at h
  unfold isPrintable
  by_cases htab : c = '\t'
  · simp [htab]
  · simp [htab, hbreak] at h ⊢
    exact h

theorem readLiteral_append {cs : List Char} (hprintable : ∀ c ∈ cs, isPrintable c = true)
    (hquote : '\'' ∉ cs) (done rest : List Char) :
    readLiteral done (cs ++ '\'' :: rest) = some (done.reverse ++ cs, rest) := by
  induction cs generalizing done with
  | nil => rw [List.nil_append, readLiteral, if_pos rfl, List.append_nil]
  | cons c cs ih =>
    obtain ⟨hc, hcs⟩ := List.forall_mem_cons.mp hprintable
    obtain ⟨hne, hrest⟩ := List.ne_and_not_mem_of_not_mem_cons hquote
    rw [List.cons_append, readLiteral, if_neg (Ne.symm hne), if_pos hc, ih hcs hrest,
      List.reverse_cons, List.append_assoc]
    rfl

/-- A text with at most two quotes in a row is read up to the three closing quotes, with the quotes
in front of the rest of the text read together with what follows them. -/
theorem readLiteralLines_append {cs : List Char} (hplain : ∀ c ∈ cs, needsEscape c = false)
    (done : List Char) {rest : List Char} (hrest : ∀ tail, rest ≠ '\'' :: tail) {quotes best : ℕ}
    (hquotes : quotes ≤ 2) (hrun : longestRun '\'' quotes best cs ≤ 2) :
    readLiteralLines done (List.replicate quotes '\'' ++ (cs ++ '\'' :: '\'' :: '\'' :: rest)) =
      some (done.reverse ++ List.replicate quotes '\'' ++ cs, rest) := by
  induction cs generalizing done quotes best with
  | nil =>
    rw [List.nil_append, List.append_nil]
    exact closedByThree_literal.close hquotes done hrest
  | cons c cs ih =>
    obtain ⟨hc, hcs⟩ := List.forall_mem_cons.mp hplain
    rw [longestRun] at hrun
    by_cases hquote : c = '\''
    · subst hquote
      rw [if_pos rfl] at hrun
      have hle := le_longestRun '\'' (quotes + 1) (max best (quotes + 1)) cs
      have hreplicate : List.replicate quotes '\'' ++ ('\'' :: cs ++ '\'' :: '\'' :: '\'' :: rest) =
          List.replicate (quotes + 1) '\'' ++ (cs ++ '\'' :: '\'' :: '\'' :: rest) := by
        rw [List.replicate_succ', List.append_assoc]
        rfl
      rw [hreplicate, ih hcs done (by omega) hrun, List.replicate_succ']
      simp only [List.append_assoc, List.singleton_append]
    · rw [if_neg hquote] at hrun
      have h := ih hcs (c :: (List.replicate quotes '\'' ++ done)) (Nat.zero_le 2) hrun
      rw [List.replicate_zero, List.nil_append] at h
      have hreturn : c ≠ '\r' := by
        rintro rfl
        exact absurd hc (by decide)
      have hstep : readLiteralLines (List.replicate quotes '\'' ++ done)
          (c :: (cs ++ '\'' :: '\'' :: '\'' :: rest)) =
          readLiteralLines (c :: (List.replicate quotes '\'' ++ done))
            (cs ++ '\'' :: '\'' :: '\'' :: rest) := by
        by_cases hbreak : c = '\n'
        · subst hbreak
          rw [readLiteralLines]
        · rw [readLiteralLines, if_pos (isPrintable_of_needsEscape hc hbreak)]
          all_goals
            intros
            contradiction
      rw [List.cons_append, closedByThree_literal.pass hquotes done hquote, hstep, h]
      simp

/-! ## Styles -/

theorem plain_of_any {cs : List Char} (h : cs.any needsEscape = false) :
    ∀ c ∈ cs, needsEscape c = false := by
  intro c hc
  exact Bool.eq_false_iff.mpr (List.any_eq_false.mp h c hc)

theorem styleOf_eq_literal {cs : List Char} (h : styleOf cs = .literal) :
    (∀ c ∈ cs, needsEscape c = false) ∧ longestRun '\'' 0 0 cs = 0 ∧ '\n' ∉ cs := by
  unfold styleOf at h
  dsimp only at h
  split_ifs at h with _ hliteral
  simp only [Bool.and_eq_true, Bool.not_eq_true', decide_eq_true_eq] at hliteral
  obtain ⟨⟨hplain, hsingles⟩, hbreaks⟩ := hliteral
  exact ⟨plain_of_any hplain, hsingles, by simpa using hbreaks⟩

theorem styleOf_eq_literalLines {cs : List Char} (h : styleOf cs = .literalLines) :
    (∀ c ∈ cs, needsEscape c = false) ∧ longestRun '\'' 0 0 cs ≤ 2 := by
  unfold styleOf at h
  dsimp only at h
  split_ifs at h with _ _ _ hlines
  simp only [Bool.and_eq_true, Bool.not_eq_true', decide_eq_true_eq] at hlines
  exact ⟨plain_of_any hlines.1, hlines.2⟩

theorem escaped_ne_quotes (cs : List Char) {rest : List Char} (hrest : ∀ tail, rest ≠ '"' :: tail) :
    ∀ tail, escaped false 0 cs ++ '"' :: rest ≠ '"' :: '"' :: tail := by
  intro tail heq
  cases cs with
  | nil => exact hrest tail (List.cons.inj heq).2
  | cons c cs =>
    by_cases hquote : c = '"'
    · subst hquote
      simp [escaped] at heq
    · obtain ⟨d, written, hwritten, hd, -⟩ := exists_writtenChar hquote
      rw [escaped_cons hquote fun _ => rfl, hwritten] at heq
      exact hd (List.cons.inj heq).1

/-- The line break after the opening quotes is dropped, and no other one. -/
theorem dropFirstBreak_opening {cs text : List Char}
    (h : '\n' ∉ cs → ∃ d tail, text = d :: tail ∧ d ≠ '\n' ∧ d ≠ '\r') :
    dropFirstBreak ((if cs.contains '\n' then ['\n'] else []) ++ text) = text := by
  by_cases hbreak : '\n' ∈ cs
  · rw [if_pos (by simpa using hbreak)]
    rfl
  · obtain ⟨d, tail, rfl, hfeed, hreturn⟩ := h hbreak
    rw [if_neg (by simpa using hbreak), List.nil_append, dropFirstBreak]
    · intro _ heq
      exact hfeed (List.cons.inj heq).1
    · intro _ heq
      exact hreturn (List.cons.inj heq).1

theorem exists_escaped {cs : List Char} (hbreak : '\n' ∉ cs) (rest : List Char) :
    ∃ d tail, escaped true 0 cs ++ '"' :: rest = d :: tail ∧ d ≠ '\n' ∧ d ≠ '\r' := by
  cases cs with
  | nil => exact ⟨'"', rest, rfl, by decide⟩
  | cons c cs =>
    by_cases hquote : c = '"'
    · subst hquote
      refine ⟨'"', escaped true 1 cs ++ '"' :: rest, ?_, by decide⟩
      simp [escaped]
    · obtain ⟨d, written, hwritten, -, hd⟩ := exists_writtenChar hquote
      have hne : c ≠ '\n' := Ne.symm (List.ne_and_not_mem_of_not_mem_cons hbreak).1
      rw [escaped_cons hquote fun heq => absurd heq hne, hwritten]
      exact ⟨d, _, rfl, hd⟩

/-- **A quoted text is read back**, in whichever style it is written. -/
theorem readQuoted_quote (cs : List Char) {rest : List Char}
    (hdouble : ∀ tail, rest ≠ '"' :: tail) (hsingle : ∀ tail, rest ≠ '\'' :: tail) :
    readQuoted (quote cs ++ rest) = some (cs, rest) := by
  unfold quote
  cases hstyle : styleOf cs with
  | basic =>
    have hrow := escaped_ne_quotes cs hdouble
    dsimp only
    rw [List.cons_append, List.cons_append, List.append_assoc, List.singleton_append, readQuoted,
      readQuotedKey, readBasic_escaped]
    · rfl
    · intro tail heq
      exact hrow tail (List.cons.inj heq).2
    · intro tail heq
      cases heq
  | literal =>
    obtain ⟨hplain, hrun, hbreak⟩ := styleOf_eq_literal hstyle
    have hquote := not_mem_of_longestRun hrun
    have hprintable : ∀ c ∈ cs, isPrintable c = true := by
      intro c hc
      refine isPrintable_of_needsEscape (hplain c hc) ?_
      rintro rfl
      exact hbreak hc
    have hrow : ∀ tail, cs ++ '\'' :: rest ≠ '\'' :: '\'' :: tail := by
      intro tail heq
      cases cs with
      | nil => exact hsingle tail (List.cons.inj heq).2
      | cons c cs =>
        obtain rfl : c = '\'' := (List.cons.inj heq).1
        exact hquote List.mem_cons_self
    dsimp only
    rw [List.cons_append, List.cons_append, List.append_assoc, List.singleton_append, readQuoted,
      readQuotedKey, readLiteral_append hprintable hquote]
    · rfl
    · intro tail heq
      cases heq
    · intro tail heq
      exact hrow tail (List.cons.inj heq).2
  | basicLines =>
    have hread := readBasicLines_escaped cs [] hdouble (Nat.zero_le 2)
    rw [List.replicate_zero, List.nil_append] at hread
    have hopen := dropFirstBreak_opening fun hbreak : '\n' ∉ cs =>
      exists_escaped hbreak ('"' :: '"' :: rest)
    simp only [opening, List.append_assoc, List.cons_append, List.nil_append]
    rw [readQuoted, hopen, hread]
    rfl
  | literalLines =>
    obtain ⟨hplain, hrun⟩ := styleOf_eq_literalLines hstyle
    have hread := readLiteralLines_append hplain [] hsingle (Nat.zero_le 2) hrun
    rw [List.replicate_zero, List.nil_append] at hread
    have hopen : dropFirstBreak ((if cs.contains '\n' then ['\n'] else []) ++
        (cs ++ '\'' :: '\'' :: '\'' :: rest)) = cs ++ '\'' :: '\'' :: '\'' :: rest := by
      refine dropFirstBreak_opening fun hbreak => ?_
      cases cs with
      | nil => exact ⟨'\'', _, rfl, by decide⟩
      | cons c cs =>
        refine ⟨c, _, rfl, Ne.symm (List.ne_and_not_mem_of_not_mem_cons hbreak).1, ?_⟩
        rintro rfl
        exact absurd (hplain _ List.mem_cons_self) (by decide)
    simp only [opening, List.append_assoc, List.cons_append, List.nil_append]
    rw [readQuoted, hopen, hread]
    rfl

end GyroDelay.Toml

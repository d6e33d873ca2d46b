import GyroDelay.Proofs.Decimal
import GyroDelay.Proofs.Toml.Quoting

/-!
# TOML documents are read back

A document is a sequence of lines, each one statement, with empty lines between them
(`Document`). The reader finds its statements in order (`Document.readStatements`). The header of
a table and a key with its value are statements (`isStatement_header`, `isStatement_assignment`),
where the value is a quoted text, a truth value, an integer or another plain value that is read as
such (`isValue_quoted`, `isValue_bool`, `isValue_natCast`, `isValue_scalar`).

The statements of tables with different names, whose keys differ, make up these tables
(`build?_sections`): a header opens its table behind those before it, and every line after it adds
one value to that table.
-/

namespace GyroDelay.Toml

open Config (Tree)

/-! ## Lines -/

theorem skipVoid_idem {inComment : Bool} {cs rest : List Char}
    (h : skipVoid inComment cs = some rest) : skipVoid false rest = some rest := by
  fun_induction skipVoid inComment cs with
  | case1 => cases h; rfl
  | case2 _ cs ih => exact ih h
  | case3 _ cs ih => exact ih h
  | case4 c cs _ _ _ ih => exact ih h
  | case5 => cases h
  | case6 c cs _ _ _ _ _ ih => exact ih h
  | case7 cs _ _ _ _ _ ih => exact ih h
  | case8 _ c cs hfeed hreturn hcomment hblank hhash =>
    obtain rfl := Option.some.inj h
    rw [skipVoid, if_neg, if_neg hblank, if_neg hhash]
    · exact Bool.false_ne_true
    · exact hfeed
    · exact hreturn

theorem readStatements_of_skipVoid {cs rest : List Char} (h : skipVoid false cs = some rest)
    (fuel : ℕ) : readStatements fuel rest = readStatements fuel cs := by
  cases fuel with
  | zero => rfl
  | succ fuel => rw [readStatements, readStatements, h, skipVoid_idem h]

/-- A line begins with a character that is neither blank nor the beginning of a break or a
comment. -/
def BeginsLine (cs : List Char) : Prop :=
  ∃ c tail, cs = c :: tail ∧ isLineBlank c = false ∧ c ≠ '\n' ∧ c ≠ '\r' ∧ c ≠ '#'

theorem BeginsLine.skipVoid {cs : List Char} (h : BeginsLine cs) (rest : List Char) :
    skipVoid false (cs ++ rest) = some (cs ++ rest) := by
  obtain ⟨c, tail, rfl, hblank, hfeed, hreturn, hhash⟩ := h
  rw [List.cons_append, Toml.skipVoid, if_neg, if_neg, if_neg hhash]
  · rw [hblank]
    exact Bool.false_ne_true
  · exact Bool.false_ne_true
  · exact hfeed
  · intro _ heq
    exact absurd heq hreturn

/-- A text that is one statement. -/
structure IsStatement (cs : List Char) (s : Statement) : Prop where
  begins : BeginsLine cs
  reads : ∀ rest, readStatement (cs ++ '\n' :: rest) = (skipVoid false rest).map (s, ·)

/-- A text made of statements, one a line, and of empty lines. -/
inductive Document : List Char → List Statement → Prop
  | nil : Document [] []
  | empty {cs : List Char} {ss : List Statement} (h : Document cs ss) : Document ('\n' :: cs) ss
  | line {l cs : List Char} {s : Statement} {ss : List Statement} (hl : IsStatement l s)
      (h : Document cs ss) : Document (l ++ '\n' :: cs) (s :: ss)

theorem Document.readStatements {cs : List Char} {ss : List Statement} (h : Document cs ss) :
    ∀ fuel, cs.length < fuel → readStatements fuel cs = some ss := by
  induction h with
  | nil =>
    intro fuel hfuel
    obtain ⟨k, rfl⟩ : ∃ k, fuel = k + 1 := ⟨fuel - 1, by omega⟩
    rfl
  | @empty cs ss h ih =>
    intro fuel hfuel
    rw [List.length_cons] at hfuel
    rw [← ih fuel (by omega)]
    cases fuel with
    | zero => rfl
    | succ fuel =>
      rw [Toml.readStatements, Toml.readStatements]
      rfl
  | @line l cs s ss hl h ih =>
    intro fuel hfuel
    rw [List.length_append, List.length_cons] at hfuel
    obtain ⟨k, rfl⟩ : ∃ k, fuel = k + 1 := ⟨fuel - 1, by omega⟩
    have hrest := ih k (by omega)
    obtain ⟨rest, hskip⟩ : ∃ rest, skipVoid false cs = some rest := by
      cases hskip : skipVoid false cs with
      | some rest => exact ⟨rest, rfl⟩
      | none =>
        cases k with
        | zero => cases hrest
        | succ k =>
          rw [Toml.readStatements, hskip] at hrest
          cases hrest
    have hline := hl.reads cs
    have hbegins := hl.begins.skipVoid ('\n' :: cs)
    obtain ⟨c, tail, hl', -⟩ := hl.begins
    rw [hskip, Option.map_some] at hline
    rw [Toml.readStatements, hbegins]
    subst hl'
    rw [List.cons_append] at hline ⊢
    dsimp only
    rw [hline]
    dsimp only
    rw [readStatements_of_skipVoid hskip, hrest]
    rfl

/-! ## Keys -/

/-- A name that needs no quotes as a key. -/
def IsBare (name : String) : Prop := name.toList ≠ [] ∧ ∀ c ∈ name.toList, isBareKey c = true

theorem IsBare.exists_cons {name : String} (h : IsBare name) :
    ∃ c tail, name.toList = c :: tail ∧ isBareKey c = true := by
  obtain ⟨c, tail, hname⟩ := List.exists_cons_of_ne_nil h.1
  exact ⟨c, tail, hname, h.2 c (hname ▸ List.mem_cons_self)⟩

theorem ne_of_isBareKey {c : Char} (hc : isBareKey c = true) (d : Char) (hd : isBareKey d = false) :
    c ≠ d := by
  rintro rfl
  rw [hc] at hd
  contradiction

/-- A key is read up to the first character that is neither part of it nor blank. -/
theorem readKey_append {name : String} (hname : IsBare name) {rest tail : List Char}
    (hstop : ∀ c ∈ rest.head?, isBareKey c = false) (hskip : skipBlank rest = tail)
    (hdot : ∀ more, tail ≠ '.' :: more) :
    readKey (name.toList ++ rest) = some ([name], tail) := by
  obtain ⟨c, cs, hcons, hc⟩ := hname.exists_cons
  have htake : (name.toList ++ rest).takeWhile isBareKey = name.toList := by
    rw [Text.takeWhile_append_stop hstop, List.takeWhile_eq_self_iff]
    exact hname.2
  have hdrop : (name.toList ++ rest).dropWhile isBareKey = rest := by
    rw [Text.dropWhile_append_stop hstop, List.dropWhile_eq_nil_iff.mpr hname.2, List.nil_append]
  have hblank : skipBlank (name.toList ++ rest) = name.toList ++ rest := by
    rw [hcons, List.cons_append, skipBlank, List.dropWhile_cons_of_neg]
    have hspace := ne_of_isBareKey hc ' ' (by decide)
    have htab := ne_of_isBareKey hc '\t' (by decide)
    simp [isLineBlank, hspace, htab]
  have hquoted : readQuotedKey (name.toList ++ rest) = none := by
    rw [hcons, List.cons_append, readQuotedKey]
    · intro _ heq
      exact ne_of_isBareKey hc '"' (by decide) (List.cons.inj heq).1
    · intro _ heq
      exact ne_of_isBareKey hc '\'' (by decide) (List.cons.inj heq).1
  have hsimple : readSimpleKey (name.toList ++ rest) = some (name, rest) := by
    rw [readSimpleKey, hquoted, htake, hdrop]
    dsimp only
    rw [if_neg, String.ofList_toList]
    simpa using hname.1
  rw [readKey, depthLimit, readKeyParts, hblank, hsimple]
  dsimp only
  rw [hskip]
  split
  · exact absurd rfl (hdot _)
  · rfl

theorem endLine_break (rest : List Char) : endLine ('\n' :: rest) = skipVoid false rest := rfl

theorem isStatement_header {name : String} (hname : IsBare name) :
    IsStatement ('[' :: (name.toList ++ [']'])) (.header [name]) where
  begins := ⟨'[', _, rfl, by decide⟩
  reads := by
    intro rest
    obtain ⟨c, cs, hcons, hc⟩ := hname.exists_cons
    have hkey : readKey (name.toList ++ ']' :: '\n' :: rest) =
        some ([name], ']' :: '\n' :: rest) := by
      refine readKey_append hname ?_ rfl ?_
      · rintro _ ⟨⟩
        decide
      · intro _ heq
        cases heq
    rw [List.cons_append, List.append_assoc, List.singleton_append, readStatement, hkey]
    · rfl
    · rintro tail heq
      rw [hcons] at heq
      exact ne_of_isBareKey hc '[' (by decide) (List.cons.inj heq).1

/-! ## Values -/

/-- A text that is read as a value up to the end of the line. -/
structure IsValue (cs : List Char) (t : Tree) : Prop where
  begins : ∃ c tail, cs = c :: tail ∧ isLineBlank c = false
  reads : ∀ fuel depth rest,
    readValue (fuel + 1) depth (cs ++ '\n' :: rest) = some (t, '\n' :: rest)

/-- A key with its value. -/
theorem isStatement_assignment {name : String} (hname : IsBare name) {cs : List Char} {t : Tree}
    (h : IsValue cs t) :
    IsStatement (name.toList ++ (" = ".toList ++ cs)) (.assignment [name] t) := by
  obtain ⟨c, key, hcons, hc⟩ := hname.exists_cons
  refine ⟨?_, ?_⟩
  · refine ⟨c, key ++ (" = ".toList ++ cs), by rw [hcons]; rfl, ?_, ?_⟩
    · have hspace := ne_of_isBareKey hc ' ' (by decide)
      have htab := ne_of_isBareKey hc '\t' (by decide)
      simp [isLineBlank, hspace, htab]
    · exact ⟨ne_of_isBareKey hc _ (by decide), ne_of_isBareKey hc _ (by decide),
        ne_of_isBareKey hc _ (by decide)⟩
  · intro rest
    obtain ⟨d, tail, hvalue, hd⟩ := h.begins
    have hkey : readKey (name.toList ++ (" = ".toList ++ (cs ++ '\n' :: rest))) =
        some ([name], '=' :: ' ' :: (cs ++ '\n' :: rest)) := by
      refine readKey_append hname ?_ rfl ?_
      · rintro _ ⟨⟩
        decide
      · intro _ heq
        cases heq
    have hskip : skipBlank (' ' :: (cs ++ '\n' :: rest)) = cs ++ '\n' :: rest := by
      change skipBlank (cs ++ '\n' :: rest) = _
      rw [hvalue, List.cons_append, skipBlank, List.dropWhile_cons_of_neg]
      rw [hd]
      exact Bool.false_ne_true
    rw [List.append_assoc, List.append_assoc, readStatement]
    · simp only [hkey, hskip, h.reads, endLine_break]
    · intro tail heq
      rw [hcons] at heq
      exact ne_of_isBareKey hc '[' (by decide) (List.cons.inj heq).1
    · intro tail heq
      rw [hcons] at heq
      exact ne_of_isBareKey hc '[' (by decide) (List.cons.inj heq).1

theorem isValue_quoted (s : String) : IsValue (quoted s).toList (.text s) := by
  have hbegins : ∃ c tail, quote s.toList = c :: tail ∧ (c = '"' ∨ c = '\'') := by
    unfold quote
    cases styleOf s.toList with
    | basic => exact ⟨'"', _, rfl, .inl rfl⟩
    | literal => exact ⟨'\'', _, rfl, .inr rfl⟩
    | basicLines => exact ⟨'"', _, rfl, .inl rfl⟩
    | literalLines => exact ⟨'\'', _, rfl, .inr rfl⟩
  obtain ⟨c, tail, hquote, hc⟩ := hbegins
  rw [quoted, String.toList_ofList]
  constructor
  · refine ⟨c, tail, hquote, ?_⟩
    obtain rfl | rfl := hc <;> decide
  · intro fuel depth rest
    have hread : readQuoted (quote s.toList ++ '\n' :: rest) = some (s.toList, '\n' :: rest) := by
      refine readQuoted_quote _ ?_ ?_
      · intro _ heq
        cases heq
      · intro _ heq
        cases heq
    rw [hquote, List.cons_append] at hread ⊢
    obtain rfl | rfl := hc
    · rw [readValue, hread, Option.map_some]
      · dsimp only
        rw [String.ofList_toList]
    · rw [readValue, hread, Option.map_some]
      · dsimp only
        rw [String.ofList_toList]

/-- A plain value whose characters all belong to it. -/
theorem isValue_scalar {cs : List Char} {t : Tree} (hplain : ∀ c ∈ cs, isPlain c = true)
    (h : scalar? cs = some t) : IsValue cs t := by
  have hne : cs ≠ [] := by
    rintro rfl
    have hnone : scalar? [] = none := rfl
    rw [hnone] at h
    cases h
  obtain ⟨c, tail, rfl⟩ := List.exists_cons_of_ne_nil hne
  have hc := hplain c List.mem_cons_self
  have hother : ∀ d, isPlain d = false → c ≠ d := by
    rintro d hd rfl
    rw [hc] at hd
    contradiction
  constructor
  · refine ⟨c, tail, rfl, ?_⟩
    simp [isLineBlank, hother ' ' (by decide), hother '\t' (by decide)]
  · intro fuel depth rest
    have hstop : ∀ c ∈ ('\n' :: rest).head?, isPlain c = false := by
      rintro _ ⟨⟩
      decide
    have hread : readScalar (c :: tail ++ '\n' :: rest) = some (t, '\n' :: rest) := by
      rw [readScalar, Text.takeWhile_append_stop hstop, Text.dropWhile_append_stop hstop,
        List.takeWhile_eq_self_iff.mpr hplain, List.dropWhile_eq_nil_iff.mpr hplain,
        List.nil_append]
      dsimp only
      rw [h]
      split
      · rename_i heq
        cases heq
      · rfl
    rw [List.cons_append] at hread ⊢
    rw [readValue, hread]
    · exact fun _ heq => hother '"' (by decide) (List.cons.inj heq).1
    · exact fun _ heq => hother '\'' (by decide) (List.cons.inj heq).1
    · exact fun _ _ heq _ => hother '[' (by decide) (List.cons.inj heq).1
    · exact fun _ _ heq _ => hother '\x7b' (by decide) (List.cons.inj heq).1

theorem isValue_bool (b : Bool) : IsValue (if b then "true" else "false").toList (.bool b) := by
  cases b with
  | false =>
    have hne : "false".toList ≠ "true".toList := by simp
    have hread : scalar? "false".toList = some (.bool false) := by
      rw [scalar?, if_neg hne, if_pos rfl]
    exact isValue_scalar (List.all_eq_true.mp rfl) hread
  | true =>
    have hread : scalar? "true".toList = some (.bool true) := by
      rw [scalar?, if_pos rfl]
    exact isValue_scalar (List.all_eq_true.mp rfl) hread

theorem isPlain_of_isDigit {c : Char} (h : c.isDigit = true) : isPlain c = true := by
  simp [isPlain, Char.isAlphanum, h]

theorem digits?_of_isDigit {cs : List Char} (hne : cs ≠ []) (h : ∀ c ∈ cs, c.isDigit = true) :
    digits? Char.isDigit cs = some cs := by
  have hgroup : '_' ∉ cs := fun hmem => absurd (h '_' hmem) (by decide)
  have hall : ([cs].all fun g => !g.isEmpty && g.all Char.isDigit) = true := by
    simpa [List.isEmpty_iff, hne] using h
  rw [digits?, Text.fields_eq_singleton hgroup, if_pos hall, List.flatten_singleton]

theorem whole?_toDigits (n : ℕ) : whole? (Nat.toDigits 10 n) = some (Nat.toDigits 10 n) := by
  have hdigits := digits?_of_isDigit (@Nat.toDigits_ne_nil n 10)
    fun _ hc => Decimal.isDigit_of_mem_toDigits hc
  rw [whole?, hdigits]
  split
  · rename_i heq
    exact absurd (Decimal.toDigits_eq_zero_cons (Option.some.inj heq)) (List.cons_ne_nil _ _)
  · rfl

theorem integer?_toDigits {n : ℕ} (h : isUnsigned 128 (n : ℤ) = true) :
    integer? (Nat.toDigits 10 n) = some (n : ℤ) := by
  have hdigit : ∀ c ∈ Nat.toDigits 10 n, c.isDigit = true :=
    fun _ hc => Decimal.isDigit_of_mem_toDigits hc
  -- no digits look like the prefix of another base
  have hbase : ∀ c tail, c.isDigit = false → Nat.toDigits 10 n ≠ '0' :: c :: tail := by
    intro c tail hc heq
    rw [hdigit c (heq ▸ List.mem_cons_of_mem _ List.mem_cons_self)] at hc
    exact absurd hc (by decide)
  unfold integer?
  dsimp only
  split
  · exact absurd (by assumption) (hbase 'x' _ (by decide))
  · exact absurd (by assumption) (hbase 'o' _ (by decide))
  · exact absurd (by assumption) (hbase 'b' _ (by decide))
  · rw [Decimal.splitSign_of_isDigit hdigit]
    dsimp only
    rw [whole?_toDigits, Option.map_some, Decimal.ofDigits_toDigits]
    simp [h]

theorem scalar?_of_integer? {cs : List Char} {i : ℤ} (h : integer? cs = some i) :
    scalar? cs = some (.integer i) := by
  have htrue : cs ≠ "true".toList := by
    rintro rfl
    cases h
  have hfalse : cs ≠ "false".toList := by
    rintro rfl
    cases h
  rw [scalar?, if_neg htrue, if_neg hfalse, h]

theorem isValue_natCast {n : ℕ} (h : isUnsigned 128 (n : ℤ) = true) :
    IsValue (toString n).toList (.integer n) := by
  rw [Nat.toString_eq_repr, Nat.toList_repr]
  exact isValue_scalar (fun _ hc => isPlain_of_isDigit (Decimal.isDigit_of_mem_toDigits hc))
    (scalar?_of_integer? (integer?_toDigits h))

/-! ## Tables -/

theorem alter_of_not_mem {key : String} {entries : Entries} (h : key ∉ entries.map Prod.fst)
    (change : Option Node → Option Node) :
    alter key change entries = (change none).map fun node => entries ++ [(key, node)] := by
  induction entries with
  | nil => rfl
  | cons entry entries ih =>
    obtain ⟨k, node⟩ := entry
    rw [List.map_cons, List.mem_cons, not_or] at h
    rw [alter, if_neg (Ne.symm h.1), ih h.2, Option.map_map]
    rfl

theorem alter_append {key : String} {entries : Entries} (h : key ∉ entries.map Prod.fst)
    (change : Option Node → Option Node) (node : Node) :
    alter key change (entries ++ [(key, node)]) =
      (change (some node)).map fun node => entries ++ [(key, node)] := by
  induction entries with
  | nil =>
    rw [List.nil_append, alter, if_pos rfl]
    rfl
  | cons entry entries ih =>
    obtain ⟨k, other⟩ := entry
    rw [List.map_cons, List.mem_cons, not_or] at h
    rw [List.cons_append, alter, if_neg (Ne.symm h.1), ih h.2, Option.map_map]
    rfl

/-- A table with its values. -/
abbrev Section := String × List (String × Tree)

/-- The lines of a table. -/
def Section.statements (s : Section) : List Statement :=
  .header [s.1] :: s.2.map fun e => .assignment [e.1] e.2

/-- The node of a table. -/
def Section.node (s : Section) : String × Node :=
  (s.1, .table .opened (s.2.map fun e => (e.1, .value e.2)))

/-- The tree of a table. -/
def Section.tree (s : Section) : Option String × Tree :=
  (some s.1, .record (s.2.map fun e => (some e.1, e.2)))

theorem apply_header {name : String} {root : Entries} (h : name ∉ root.map Prod.fst)
    (current : List String) :
    Draft.apply ⟨root, current⟩ (.header [name]) =
      some ⟨root ++ [(name, .table .opened [])], [name]⟩ := by
  have hopen : openTable [name] root = some (root ++ [(name, .table .opened [])]) := by
    change alter name _ root = _
    rw [alter_of_not_mem h]
    rfl
  rw [Draft.apply, hopen]
  rfl

theorem apply_assignment {name key : String} {root entries : Entries}
    (hname : name ∉ root.map Prod.fst) (hkey : key ∉ entries.map Prod.fst) (value : Tree) :
    Draft.apply ⟨root ++ [(name, .table .opened entries)], [name]⟩ (.assignment [key] value) =
      some ⟨root ++ [(name, .table .opened (entries ++ [(key, .value value)]))], [name]⟩ := by
  have hassign : assign [key] value entries = some (entries ++ [(key, .value value)]) := by
    change alter key _ entries = _
    rw [alter_of_not_mem hkey]
    rfl
  have henter : enter false (fun _ entries => assign [key] value entries) [name] .opened
      (root ++ [(name, .table .opened entries)]) =
      some (root ++ [(name, .table .opened (entries ++ [(key, .value value)]))]) := by
    rw [enter, alter_append hname]
    change ((enter false (fun _ entries => assign [key] value entries) [] .opened
      entries).map _).map _ = _
    rw [enter, hassign]
    rfl
  rw [Draft.apply, henter]
  rfl

/-- The lines of a table give it their values one after the other. -/
theorem foldlM_assignments {name : String} {root : Entries} (hname : name ∉ root.map Prod.fst) :
    ∀ (values : List (String × Tree)) (before : List (String × Tree)),
      ((before ++ values).map Prod.fst).Nodup →
      (values.map fun e => Statement.assignment [e.1] e.2).foldlM Draft.apply
        ⟨root ++ [Section.node (name, before)], [name]⟩ =
        some ⟨root ++ [Section.node (name, before ++ values)], [name]⟩ := by
  intro values
  induction values with
  | nil =>
    intro before _
    rw [List.append_nil]
    rfl
  | cons value values ih =>
    intro before hnodup
    have hkey : value.1 ∉ (before.map fun e => (e.1, Node.value e.2)).map Prod.fst := by
      rw [List.map_append, List.nodup_append] at hnodup
      rw [List.map_map]
      intro hmem
      exact hnodup.2.2 value.1 hmem value.1 List.mem_cons_self rfl
    have hstep := apply_assignment hname hkey value.2
    have hmove : before ++ value :: values = (before ++ [value]) ++ values := by simp
    rw [hmove] at hnodup ⊢
    have hrest := ih (before ++ [value]) hnodup
    simp only [Section.node, List.map_append] at hrest ⊢
    rw [List.map_cons, List.foldlM_cons, hstep]
    exact hrest

theorem foldlM_sections :
    ∀ (sections before : List Section) (current : List String),
      ((before ++ sections).map Prod.fst).Nodup → (∀ s ∈ sections, (s.2.map Prod.fst).Nodup) →
      ∃ current', (sections.flatMap Section.statements).foldlM Draft.apply
        ⟨before.map Section.node, current⟩ =
        some ⟨(before ++ sections).map Section.node, current'⟩ := by
  intro sections
  induction sections with
  | nil =>
    intro before current _ _
    rw [List.append_nil]
    exact ⟨current, rfl⟩
  | cons s sections ih =>
    intro before current hnodup hkeys
    obtain ⟨hs, hsections⟩ := List.forall_mem_cons.mp hkeys
    have hname : s.1 ∉ (before.map Section.node).map Prod.fst := by
      rw [List.map_append, List.nodup_append] at hnodup
      rw [List.map_map]
      intro hmem
      exact hnodup.2.2 s.1 hmem s.1 List.mem_cons_self rfl
    have hmove : before ++ s :: sections = (before ++ [s]) ++ sections := by simp
    rw [hmove] at hnodup ⊢
    obtain ⟨current', hrest⟩ := ih (before ++ [s]) [s.1] hnodup hsections
    refine ⟨current', ?_⟩
    have hvalues := foldlM_assignments hname s.2 [] hs
    rw [List.flatMap_cons, Section.statements, List.cons_append, List.foldlM_cons,
      apply_header hname, Option.bind_eq_bind, Option.bind_some, List.foldlM_append]
    change ((s.2.map fun e => Statement.assignment [e.1] e.2).foldlM Draft.apply
      ⟨before.map Section.node ++ [Section.node (s.1, [])], [s.1]⟩ >>= _) = _
    rw [hvalues]
    simp only [List.map_append] at hrest ⊢
    exact hrest

theorem entriesToMembers_values (values : List (String × Tree)) :
    entriesToMembers (values.map fun e => (e.1, .value e.2)) =
      values.map fun e => (some e.1, e.2) := by
  induction values with
  | nil => rfl
  | cons value values ih => rw [List.map_cons, entriesToMembers, ih, Node.toTree]; rfl

theorem entriesToMembers_sections (sections : List Section) :
    entriesToMembers (sections.map Section.node) = sections.map Section.tree := by
  induction sections with
  | nil => rfl
  | cons s sections ih =>
    rw [List.map_cons, Section.node, entriesToMembers, ih, Node.toTree, entriesToMembers_values]
    rfl

/-- **The lines of tables with different names and keys make up these tables.** -/
theorem build?_sections {sections : List Section} (hnames : (sections.map Prod.fst).Nodup)
    (hkeys : ∀ s ∈ sections, (s.2.map Prod.fst).Nodup) :
    build? (sections.flatMap Section.statements) = some (.record (sections.map Section.tree)) := by
  obtain ⟨current, hfold⟩ := foldlM_sections sections [] [] hnames hkeys
  rw [List.map_nil, List.nil_append] at hfold
  rw [build?, hfold, Option.map_some, entriesToMembers_sections]

/-! ## Documents -/

theorem Document.parse? {cs : List Char} {ss : List Statement} (h : Document cs ss)
    (hmark : dropMark cs = cs) : parse? cs = build? ss := by
  rw [Toml.parse?, hmark]
  rw [h.readStatements _ (Nat.lt_succ_self _), Option.bind_some]

end GyroDelay.Toml

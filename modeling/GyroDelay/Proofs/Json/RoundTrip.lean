import GyroDelay.Proofs.Json.Reading

/-!
# JSON documents are read back

A document whose integers have 64 bits and whose doubles are read back from their texts is
readable (`Document.Readable`). At any level of indentation and whatever follows it, its text is
read as a value that has its tree (`Document.Readable.reads`), by induction on the document: the
items of a list and the members of a record are read one by one, with the blanks between them
passed over. The fuel of the reader is never used up, since every step leaves less text. So the
text of a readable document holds its tree and nothing else (`parse?_pretty`).
-/

namespace GyroDelay.Json

open Config (Tree)

/-! ## Blanks -/

theorem skipSpace_append {blanks : List Char} (h : ∀ c ∈ blanks, isSpace c = true)
    (cs : List Char) : skipSpace (blanks ++ cs) = skipSpace cs :=
  List.dropWhile_append_of_pos h

theorem skipSpace_skipSpace (cs : List Char) : skipSpace (skipSpace cs) = skipSpace cs :=
  List.dropWhile_idempotent isSpace cs

theorem readValue_skipSpace (fuel : ℕ) (cs : List Char) :
    readValue fuel (skipSpace cs) = readValue fuel cs := by
  cases fuel with
  | zero => rfl
  | succ fuel => rw [readValue, readValue, skipSpace_skipSpace]

theorem readItems_skipSpace (fuel : ℕ) (items : List Json) (cs : List Char) :
    readItems fuel items (skipSpace cs) = readItems fuel items cs := by
  cases fuel with
  | zero => rfl
  | succ fuel => rw [readItems, readItems, readValue_skipSpace]

theorem readMembers_skipSpace (fuel : ℕ) (members : List (Option String × Json))
    (cs : List Char) :
    readMembers fuel members (skipSpace cs) = readMembers fuel members cs := by
  cases fuel with
  | zero => rfl
  | succ fuel => rw [readMembers, readMembers, skipSpace_skipSpace]

theorem readValue_append {blanks : List Char} (h : ∀ c ∈ blanks, isSpace c = true) (fuel : ℕ)
    (cs : List Char) : readValue fuel (blanks ++ cs) = readValue fuel cs := by
  rw [← readValue_skipSpace, skipSpace_append h, readValue_skipSpace]

theorem isSpace_newline (level : ℕ) : ∀ c ∈ (newline level).toList, isSpace c = true := by
  rw [newline, String.pushn_eq_repeat_push]
  induction 2 * level with
  | zero => simp [Nat.repeat, isSpace]
  | succ k ih =>
    intro c hc
    rw [Nat.repeat, String.toList_push, List.mem_append, List.mem_singleton] at hc
    rcases hc with hc | rfl
    · exact ih c hc
    · rfl

theorem length_newline_pos (level : ℕ) : 0 < (newline level).toList.length := by
  rw [newline, String.pushn_eq_repeat_push]
  induction 2 * level with
  | zero => simp [Nat.repeat]
  | succ k ih => simp [Nat.repeat]

/-! ## Documents and what they hold -/

mutual

/-- The tree that a document writes. -/
def Document.tree : Document → Tree
  | .null => .null
  | .bool b => .bool b
  | .integer i => .integer i
  | .double x => .double x
  | .text s => .text s
  | .list items => .list (itemTrees items)
  | .record members => .record (memberTrees members)

/-- The trees of the items of a list. -/
def itemTrees : List Document → List Tree
  | [] => []
  | item :: items => item.tree :: itemTrees items

/-- The trees of the members of a record. -/
def memberTrees : List (String × Document) → List (Option String × Tree)
  | [] => []
  | (key, value) :: members => (some key, value.tree) :: memberTrees members

end

/-- A double is read back from the text in which it is written. -/
def ReadsBack (x : Float) : Prop :=
  ∃ n, readNumeral (renderDouble x).toList = some (n, []) ∧ toTree (.number n) = .double x

theorem readsBack_iff {x : Float} {n : Numeral}
    (hread : readNumeral (renderDouble x).toList = some (n, [])) (hinteger : n.toInt? = none) :
    ReadsBack x ↔ n.leading = some x := by
  constructor
  · rintro ⟨m, hm, hdouble⟩
    rw [hread] at hm
    cases hm
    rw [toTree, hinteger] at hdouble
    cases hleading : n.leading with
    | none =>
      rw [hleading] at hdouble
      cases hdouble
    | some y =>
      rw [hleading] at hdouble
      rw [Tree.double.inj hdouble]
  · intro hleading
    refine ⟨n, hread, ?_⟩
    rw [toTree, hinteger, hleading]

/-- Not every double is read back: its digits and a power of ten are rounded one after the
other. -/
theorem not_readsBack : ¬ ReadsBack 0.9385958677423489 := by
  have hread : readNumeral (renderDouble 0.9385958677423489).toList =
      some (⟨false, ['0'], "9385958677423489".toList, none⟩, []) := by
    decide +kernel
  rw [readsBack_iff hread rfl]
  decide +kernel

/-- The integers of a document have 64 bits, and its doubles are read back. -/
inductive Document.Readable : Document → Prop
  | null : Readable .null
  | bool (b : Bool) : Readable (.bool b)
  | integer {i : ℤ} (h : isSigned 64 i = true ∨ isUnsigned 64 i = true) : Readable (.integer i)
  | double {x : Float} (h : ReadsBack x) : Readable (.double x)
  | text (s : String) : Readable (.text s)
  | list {items : List Document} (h : ∀ item ∈ items, Readable item) : Readable (.list items)
  | record {members : List (String × Document)} (h : ∀ m ∈ members, Readable m.2) :
      Readable (.record members)

/-- A text is read as a value with the given tree, whatever follows it. -/
def Reads (cs : List Char) (t : Tree) : Prop :=
  ∃ j, toTree j = t ∧ ∀ fuel rest, 2 * cs.length < fuel → EndsNumeral rest →
    readValue fuel (cs ++ rest) = some (j, rest)

/-! ## Plain values -/

theorem readValue_of_readNumeral {cs : List Char} {r : Numeral × List Char}
    (h : readNumeral cs = some r) (fuel : ℕ) :
    readValue (fuel + 1) cs = some (.number r.1, r.2) := by
  obtain ⟨c, tail, rfl, hc⟩ := exists_of_readNumeral h
  have hne : ∀ d : Char, d.isDigit = false → d ≠ '-' → c ≠ d := by
    rintro d hdigit hminus rfl
    rcases hc with hc | hc
    · rw [hc] at hdigit
      contradiction
    · exact hminus hc
  have hspace : isSpace c = false := by
    simp [isSpace, hne]
  have hskip : skipSpace (c :: tail) = c :: tail := by
    rw [skipSpace, List.dropWhile_cons_of_neg]
    simp [hspace]
  rw [readValue, hskip]
  split
  · rename_i heq
    exact absurd (List.cons.inj heq).1 (hne _ (by decide) (by decide))
  · rename_i heq
    exact absurd (List.cons.inj heq).1 (hne _ (by decide) (by decide))
  · rename_i heq
    exact absurd (List.cons.inj heq).1 (hne _ (by decide) (by decide))
  · rename_i heq
    exact absurd (List.cons.inj heq).1 (hne _ (by decide) (by decide))
  · rename_i heq
    exact absurd (List.cons.inj heq).1 (hne _ (by decide) (by decide))
  · rename_i heq
    exact absurd (List.cons.inj heq).1 (hne _ (by decide) (by decide))
  · rw [h]
    rfl

theorem reads_of_readNumeral {cs : List Char} {n : Numeral}
    (h : readNumeral cs = some (n, [])) : Reads cs (toTree (.number n)) := by
  refine ⟨.number n, rfl, ?_⟩
  intro fuel rest hfuel hrest
  obtain ⟨k, rfl⟩ : ∃ k, fuel = k + 1 := ⟨fuel - 1, by omega⟩
  have happend : readNumeral (cs ++ rest) = some (n, rest) := by
    rw [hrest.readNumeral_append, h]
    rfl
  exact readValue_of_readNumeral happend k

theorem toTree_number {n : Numeral} {i : ℤ} (h : n.toInt? = some i) :
    toTree (.number n) = .integer i := by
  rw [toTree, h]

theorem reads_natCast {n : ℕ} (h : isUnsigned 64 (n : ℤ) = true) :
    Reads (toString (n : ℤ)).toList (.integer n) := by
  have hread : readNumeral (Nat.toDigits 10 n) =
      some (⟨false, Nat.toDigits 10 n, [], none⟩, []) := by
    rw [readNumeral_eq, splitMinus_toDigits, readMagnitude_toDigits]
  rw [toList_natCast, ← toTree_number (toInt?_of_isUnsigned h)]
  exact reads_of_readNumeral hread

theorem reads_neg_natCast {n : ℕ} (h : isSigned 64 (-((n + 1 : ℕ) : ℤ)) = true) :
    Reads (toString (-((n + 1 : ℕ) : ℤ))).toList (.integer (-((n + 1 : ℕ) : ℤ))) := by
  have htext : (toString (-((n + 1 : ℕ) : ℤ))).toList = '-' :: Nat.toDigits 10 (n + 1) := by
    change ("-" ++ (n + 1).repr).toList = _
    rw [String.toList_append, Nat.toList_repr]
    rfl
  have hread : readNumeral ('-' :: Nat.toDigits 10 (n + 1)) =
      some (⟨true, Nat.toDigits 10 (n + 1), [], none⟩, []) := by
    rw [readNumeral_eq, splitMinus, readMagnitude_toDigits]
  rw [htext, ← toTree_number (toInt?_of_isSigned h)]
  exact reads_of_readNumeral hread

theorem reads_integer {i : ℤ} (h : isSigned 64 i = true ∨ isUnsigned 64 i = true) :
    Reads (toString i).toList (.integer i) := by
  obtain ⟨n, rfl | rfl⟩ := i.eq_nat_or_neg
  · exact reads_natCast (h.elim isUnsigned_of_isSigned id)
  · cases n with
    | zero => exact reads_natCast (h.elim isUnsigned_of_isSigned id)
    | succ n =>
      refine reads_neg_natCast (h.elim id fun hunsigned => ?_)
      simp [isUnsigned] at hunsigned
      omega

theorem reads_null : Reads "null".toList .null := by
  refine ⟨.null, rfl, ?_⟩
  intro fuel rest hfuel _
  obtain ⟨k, rfl⟩ : ∃ k, fuel = k + 1 := ⟨fuel - 1, by omega⟩
  simp [readValue, skipSpace, isSpace, expect?]

theorem reads_bool (b : Bool) : Reads (if b then "true" else "false").toList (.bool b) := by
  refine ⟨.bool b, rfl, ?_⟩
  intro fuel rest hfuel _
  obtain ⟨k, rfl⟩ : ∃ k, fuel = k + 1 := ⟨fuel - 1, by omega⟩
  cases b <;> simp [readValue, skipSpace, isSpace, expect?]

theorem skipSpace_quote (cs : List Char) : skipSpace ('"' :: cs) = '"' :: cs := rfl

theorem reads_text (s : String) : Reads (renderText s).toList (.text s) := by
  refine ⟨.string (some s), rfl, ?_⟩
  intro fuel rest hfuel _
  obtain ⟨k, rfl⟩ : ∃ k, fuel = k + 1 := ⟨fuel - 1, by omega⟩
  obtain ⟨tail, htext, hread⟩ := readString_renderText s rest
  rw [htext, readValue, skipSpace_quote]
  change (readString tail).map _ = _
  rw [hread]
  rfl

/-! ## Lists and records -/

theorem readValue_list {fuel : ℕ} {cs : List Char} {r : Json × List Char}
    (h : readItems fuel [] cs = some r) : readValue (fuel + 1) ('[' :: cs) = some r := by
  have hskip : skipSpace ('[' :: cs) = '[' :: cs := rfl
  rw [← readItems_skipSpace] at h
  simp only [readValue, hskip]
  split
  · rename_i tail heq
    -- no item begins with the closing bracket
    rw [heq] at h
    cases fuel with
    | zero => cases h
    | succ fuel => cases fuel <;> cases h
  · exact h

theorem readValue_record {fuel : ℕ} {cs : List Char} {r : Json × List Char}
    (h : readMembers fuel [] cs = some r) : readValue (fuel + 1) ('\x7b' :: cs) = some r := by
  have hskip : skipSpace ('\x7b' :: cs) = '\x7b' :: cs := rfl
  rw [← readMembers_skipSpace] at h
  simp only [readValue, hskip]
  split
  · rename_i tail heq
    -- no key begins with the closing brace
    rw [heq] at h
    cases fuel <;> cases h
  · exact h

/-- The items of a list are read one by one up to the bracket that closes it. -/
theorem readItems_renderItems {level : ℕ} {items : List Document} :
    ∀ {item : Document}, (∀ d ∈ item :: items, Reads (d.render level).toList d.tree) →
    ∃ js, toTrees js = itemTrees (item :: items) ∧
      ∀ fuel before close rest, (∀ c ∈ close, isSpace c = true) →
        2 * ((item.render level).toList ++ (renderItems level items).toList).length + 2 ≤ fuel →
        readItems fuel before ((item.render level).toList ++
          ((renderItems level items).toList ++ (close ++ ']' :: rest))) =
          some (.array (before.reverse ++ js), rest) := by
  induction items with
  | nil =>
    intro item h
    obtain ⟨j, hj, hread⟩ := h item List.mem_cons_self
    refine ⟨[j], by rw [toTrees, toTrees, hj]; rfl, ?_⟩
    intro fuel before close rest hclose hfuel
    rw [List.length_append] at hfuel
    obtain ⟨k, rfl⟩ : ∃ k, fuel = k + 1 := ⟨fuel - 1, by omega⟩
    have hends : EndsNumeral (close ++ ']' :: rest) :=
      EndsNumeral.blanks hclose (.cons (by decide) rest)
    have hempty : (renderItems level []).toList = [] := by rw [renderItems]; rfl
    rw [readItems, hempty, List.nil_append, hread k _ (by omega) hends]
    dsimp only
    rw [skipSpace_append hclose]
    change some (Json.array (j :: before).reverse, rest) = _
    rw [List.reverse_cons]
  | cons next items ih =>
    intro item h
    obtain ⟨hitem, hitems⟩ := List.forall_mem_cons.mp h
    obtain ⟨j, hj, hread⟩ := hitem
    obtain ⟨js, hjs, hreads⟩ := ih hitems
    refine ⟨j :: js, by rw [toTrees, hj, hjs]; rfl, ?_⟩
    intro fuel before close rest hclose hfuel
    have htext : (renderItems level (next :: items)).toList =
        ',' :: ((newline level).toList ++ ((next.render level).toList ++
          (renderItems level items).toList)) := by
      rw [renderItems]
      simp only [String.toList_append, List.append_assoc]
      rfl
    have hblank := length_newline_pos level
    rw [htext] at hfuel ⊢
    simp only [List.length_append, List.length_cons] at hfuel hreads
    obtain ⟨k, rfl⟩ : ∃ k, fuel = k + 1 := ⟨fuel - 1, by omega⟩
    rw [readItems, List.cons_append, hread k _ (by omega) (.cons (by decide) _)]
    change readItems k (j :: before) _ = _
    rw [← readItems_skipSpace, List.append_assoc, skipSpace_append (isSpace_newline level),
      readItems_skipSpace, List.append_assoc, hreads k _ _ _ hclose (by omega),
      List.reverse_cons, List.append_assoc]
    rfl

/-- A member is read with its key; a comma or the closing brace follows. -/
theorem readMembers_succ {key : String} {cs rest tail : List Char} {j : Json} {fuel : ℕ}
    (h : readValue fuel cs = some (j, rest)) (before : List (Option String × Json)) :
    (skipSpace rest = ',' :: tail →
      readMembers (fuel + 1) before ((renderText key).toList ++ (": ".toList ++ cs)) =
        readMembers fuel ((some key, j) :: before) tail) ∧
    (skipSpace rest = '\x7d' :: tail →
      readMembers (fuel + 1) before ((renderText key).toList ++ (": ".toList ++ cs)) =
        some (.object ((some key, j) :: before).reverse, tail)) := by
  obtain ⟨text, htext, hkey⟩ := readString_renderText key (": ".toList ++ cs)
  have hvalue : readValue fuel (' ' :: cs) = some (j, rest) := by
    have hblank : ∀ c ∈ [' '], isSpace c = true := by simp [isSpace]
    rw [← h]
    exact readValue_append hblank fuel cs
  have hcolon : skipSpace (": ".toList ++ cs) = ':' :: ' ' :: cs := rfl
  rw [readMembers, htext, skipSpace_quote]
  simp only [hkey, hcolon, hvalue]
  constructor
  · intro hcomma
    rw [hcomma]
    rfl
  · intro hbrace
    rw [hbrace]
    rfl

/-- The members of a record are read one by one up to the brace that closes it. -/
theorem readMembers_renderMembers {level : ℕ} {members : List (String × Document)} :
    ∀ {key : String} {value : Document},
    (∀ m ∈ (key, value) :: members, Reads (m.2.render level).toList m.2.tree) →
    ∃ js, toMembers js = memberTrees ((key, value) :: members) ∧
      ∀ fuel before close rest, (∀ c ∈ close, isSpace c = true) →
        2 * ((value.render level).toList ++ (renderMembers level members).toList).length + 2 ≤
          fuel →
        readMembers fuel before ((renderText key).toList ++ (": ".toList ++
          ((value.render level).toList ++
            ((renderMembers level members).toList ++ (close ++ '\x7d' :: rest))))) =
          some (.object (before.reverse ++ js), rest) := by
  induction members with
  | nil =>
    intro key value h
    obtain ⟨j, hj, hread⟩ := h (key, value) List.mem_cons_self
    dsimp only at hread
    refine ⟨[(some key, j)], by rw [toMembers, toMembers, hj]; rfl, ?_⟩
    intro fuel before close rest hclose hfuel
    rw [List.length_append] at hfuel
    obtain ⟨k, rfl⟩ : ∃ k, fuel = k + 1 := ⟨fuel - 1, by omega⟩
    have hends : EndsNumeral (close ++ '\x7d' :: rest) :=
      EndsNumeral.blanks hclose (.cons (by decide) rest)
    have hempty : (renderMembers level []).toList = [] := by rw [renderMembers]; rfl
    have hbrace : skipSpace (close ++ '\x7d' :: rest) = '\x7d' :: rest := skipSpace_append hclose _
    rw [hempty, List.nil_append, (readMembers_succ (hread k _ (by omega) hends) before).2 hbrace,
      List.reverse_cons]
  | cons next members ih =>
    obtain ⟨nextKey, next⟩ := next
    intro key value h
    obtain ⟨hvalue, hmembers⟩ := List.forall_mem_cons.mp h
    obtain ⟨j, hj, hread⟩ := hvalue
    obtain ⟨js, hjs, hreads⟩ := ih hmembers
    dsimp only at hread
    refine ⟨(some key, j) :: js, by rw [toMembers, hj, hjs]; rfl, ?_⟩
    intro fuel before close rest hclose hfuel
    have htail : (renderMembers level ((nextKey, next) :: members)).toList =
        ',' :: ((newline level).toList ++ ((renderText nextKey).toList ++ (": ".toList ++
          ((next.render level).toList ++ (renderMembers level members).toList)))) := by
      rw [renderMembers]
      simp only [String.toList_append, List.append_assoc]
      rfl
    rw [htail] at hfuel ⊢
    simp only [List.length_append, List.length_cons] at hfuel hreads
    obtain ⟨k, rfl⟩ : ∃ k, fuel = k + 1 := ⟨fuel - 1, by omega⟩
    rw [List.cons_append,
      (readMembers_succ (hread k _ (by omega) (.cons (by decide) _)) before).1 rfl]
    simp only [List.append_assoc]
    rw [← readMembers_skipSpace, skipSpace_append (isSpace_newline level),
      readMembers_skipSpace, hreads k _ _ _ hclose (by omega), List.reverse_cons,
      List.append_assoc]
    rfl

/-- **Every readable document is read back** at any level, whatever follows it. -/
theorem Document.Readable.reads {d : Document} (h : d.Readable) :
    ∀ level, Reads (d.render level).toList d.tree := by
  induction h with
  | null => exact fun _ => reads_null
  | bool b =>
    intro level
    rw [render, tree]
    exact reads_bool b
  | integer h =>
    intro level
    rw [render, tree]
    exact reads_integer h
  | double h =>
    intro level
    obtain ⟨n, hread, htree⟩ := h
    rw [render, tree, ← htree]
    exact reads_of_readNumeral hread
  | text s =>
    intro level
    rw [render, tree]
    exact reads_text s
  | @list items h ih =>
    intro level
    cases items with
    | nil =>
      refine ⟨.array [], rfl, ?_⟩
      intro fuel rest hfuel hrest
      obtain ⟨k, rfl⟩ : ∃ k, fuel = k + 1 := ⟨fuel - 1, by omega⟩
      rw [render]
      rfl
    | cons item items =>
      obtain ⟨js, hjs, hread⟩ := readItems_renderItems fun d hd => ih d hd (level + 1)
      refine ⟨.array js, by rw [toTree, hjs, tree], ?_⟩
      intro fuel rest hfuel hrest
      have htext : (render level (.list (item :: items))).toList ++ rest =
          '[' :: ((newline (level + 1)).toList ++ ((item.render (level + 1)).toList ++
            ((renderItems (level + 1) items).toList ++
              ((newline level).toList ++ ']' :: rest)))) := by
        rw [render]
        simp only [String.toList_append, List.append_assoc]
        rfl
      have hlength := congrArg List.length htext
      simp only [List.length_append, List.length_cons] at hlength hread
      obtain ⟨k, rfl⟩ : ∃ k, fuel = k + 1 := ⟨fuel - 1, by omega⟩
      rw [htext]
      refine readValue_list ?_
      rw [← readItems_skipSpace, skipSpace_append (isSpace_newline _), readItems_skipSpace]
      exact hread k [] _ rest (isSpace_newline level) (by omega)
  | @record members h ih =>
    intro level
    cases members with
    | nil =>
      refine ⟨.object [], rfl, ?_⟩
      intro fuel rest hfuel hrest
      obtain ⟨k, rfl⟩ : ∃ k, fuel = k + 1 := ⟨fuel - 1, by omega⟩
      rw [render]
      rfl
    | cons member members =>
      obtain ⟨key, value⟩ := member
      obtain ⟨js, hjs, hread⟩ := readMembers_renderMembers fun m hm => ih m hm (level + 1)
      refine ⟨.object js, by rw [toTree, hjs, tree], ?_⟩
      intro fuel rest hfuel hrest
      have htext : (render level (.record ((key, value) :: members))).toList ++ rest =
          '\x7b' :: ((newline (level + 1)).toList ++ ((renderText key).toList ++ (": ".toList ++
            ((value.render (level + 1)).toList ++ ((renderMembers (level + 1) members).toList ++
              ((newline level).toList ++ '\x7d' :: rest)))))) := by
        rw [render]
        simp only [String.toList_append, List.append_assoc]
        rfl
      have hlength := congrArg List.length htext
      simp only [List.length_append, List.length_cons] at hlength hread
      obtain ⟨k, rfl⟩ : ∃ k, fuel = k + 1 := ⟨fuel - 1, by omega⟩
      rw [htext]
      refine readValue_record ?_
      rw [← readMembers_skipSpace, skipSpace_append (isSpace_newline _), readMembers_skipSpace]
      exact hread k [] _ rest (isSpace_newline level) (by omega)

/-- **The text of a readable document holds its tree.** -/
theorem parse?_pretty {d : Document} (h : d.Readable) :
    (parse? d.pretty.toList).map toTree = some d.tree := by
  obtain ⟨j, hj, hread⟩ := h.reads 0
  have hvalue := hread (2 * (d.render 0).toList.length + 2) [] (by omega) .nil
  rw [List.append_nil] at hvalue
  rw [Document.pretty, parse?, hvalue]
  simp [skipSpace, hj]

end GyroDelay.Json

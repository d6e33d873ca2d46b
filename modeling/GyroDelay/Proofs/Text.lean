import Mathlib.Algebra.Group.Nat.Defs
import Mathlib.Data.List.TakeWhile
import GyroDelay.Text.Blank
import GyroDelay.Text.Hex
import GyroDelay.Text.Lines

/-!
# Texts taken apart

Lines that end with a line feed and hold neither line feeds nor carriage returns are the lines
of the text that they make up (`lines_flatMap`), fields without separators are the fields of
the line (`fields_append`), and a text without blanks is trimmed already (`trim_eq_self`). What
a reader takes for as long as its characters go on does not depend on a text that they do not go
on with (`takeWhile_append_stop`). Four hexadecimal digits read back (`ofBase?_hex4`).
-/

namespace GyroDelay.Text

theorem dropReturn_eq_self {cs : List Char} (h : '\r' ∉ cs) : dropReturn cs = cs := by
  rw [dropReturn]
  rintro _ rfl
  exact h List.mem_cons_self

theorem linesFrom_append {line : List Char} (h : '\n' ∉ line) (current rest : List Char) :
    linesFrom current (line ++ '\n' :: rest) =
      (dropReturn (line.reverse ++ current)).reverse :: linesFrom [] rest := by
  induction line generalizing current with
  | nil => rfl
  | cons c cs ih =>
    obtain ⟨hc, hcs⟩ := List.ne_and_not_mem_of_not_mem_cons h
    rw [List.cons_append, linesFrom, if_neg (Ne.symm hc), ih hcs, List.reverse_cons,
      List.append_assoc]
    rfl

theorem lines_flatMap {ls : List (List Char)} (h : ∀ line ∈ ls, '\n' ∉ line ∧ '\r' ∉ line) :
    lines (ls.flatMap fun line => line ++ ['\n']) = ls := by
  induction ls with
  | nil => rfl
  | cons line ls ih =>
    obtain ⟨⟨hfeed, hreturn⟩, hrest⟩ := List.forall_mem_cons.mp h
    rw [List.flatMap_cons, List.append_assoc, List.singleton_append, lines,
      linesFrom_append hfeed, List.append_nil,
      dropReturn_eq_self (mt List.mem_reverse.mp hreturn), List.reverse_reverse]
    exact congrArg _ (ih hrest)

theorem fieldsFrom_append {separator : Char} {field : List Char} (h : separator ∉ field)
    (current rest : List Char) :
    fieldsFrom separator current (field ++ separator :: rest) =
      (current.reverse ++ field) :: fieldsFrom separator [] rest := by
  induction field generalizing current with
  | nil => rw [List.nil_append, fieldsFrom, if_pos rfl, List.append_nil]
  | cons c cs ih =>
    obtain ⟨hc, hcs⟩ := List.ne_and_not_mem_of_not_mem_cons h
    rw [List.cons_append, fieldsFrom, if_neg (Ne.symm hc), ih hcs, List.reverse_cons,
      List.append_assoc]
    rfl

theorem fields_append {separator : Char} {field : List Char} (h : separator ∉ field)
    (rest : List Char) :
    fields separator (field ++ separator :: rest) = field :: fields separator rest :=
  fieldsFrom_append h [] rest

theorem fieldsFrom_eq_singleton {separator : Char} {field : List Char} (h : separator ∉ field)
    (current : List Char) : fieldsFrom separator current field = [current.reverse ++ field] := by
  induction field generalizing current with
  | nil => rw [fieldsFrom, List.append_nil]
  | cons c cs ih =>
    obtain ⟨hc, hcs⟩ := List.ne_and_not_mem_of_not_mem_cons h
    rw [fieldsFrom, if_neg (Ne.symm hc), ih hcs, List.reverse_cons, List.append_assoc]
    rfl

theorem fields_eq_singleton {separator : Char} {field : List Char} (h : separator ∉ field) :
    fields separator field = [field] :=
  fieldsFrom_eq_singleton h []

theorem dropWhile_isBlank {cs : List Char} (h : ∀ c ∈ cs, isBlank c = false) :
    cs.dropWhile isBlank = cs := by
  rw [List.dropWhile_eq_self_iff]
  intro hlen
  rw [h _ (List.getElem_mem hlen)]
  exact Bool.false_ne_true

theorem trim_eq_self {cs : List Char} (h : ∀ c ∈ cs, isBlank c = false) : trim cs = cs := by
  rw [trim, dropWhile_isBlank h, dropWhile_isBlank fun c hc => h c (List.mem_reverse.mp hc),
    List.reverse_reverse]

theorem takeWhile_append_stop {p : Char → Bool} {rest : List Char}
    (h : ∀ c ∈ rest.head?, p c = false) (cs : List Char) :
    (cs ++ rest).takeWhile p = cs.takeWhile p := by
  induction cs with
  | nil =>
    cases rest with
    | nil => rfl
    | cons c rest =>
      rw [List.nil_append, List.takeWhile_cons_of_neg, List.takeWhile_nil]
      simpa using h c rfl
  | cons c cs ih =>
    rw [List.cons_append, List.takeWhile_cons, List.takeWhile_cons, ih]

theorem dropWhile_append_stop {p : Char → Bool} {rest : List Char}
    (h : ∀ c ∈ rest.head?, p c = false) (cs : List Char) :
    (cs ++ rest).dropWhile p = cs.dropWhile p ++ rest := by
  induction cs with
  | nil =>
    cases rest with
    | nil => rfl
    | cons c rest =>
      rw [List.nil_append, List.dropWhile_cons_of_neg, List.dropWhile_nil, List.nil_append]
      simpa using h c rfl
  | cons c cs ih =>
    rw [List.cons_append, List.dropWhile_cons, List.dropWhile_cons, ih]
    split <;> rfl

/-! ## Hexadecimal digits -/

theorem hexValue?_hexDigit (upper : Bool) {n : ℕ} (h : n < 16) :
    hexValue? (hexDigit upper n) = some n := by
  have hall : ∀ k : Fin 16, hexValue? (hexDigit upper k) = some k.val := by
    cases upper <;> decide
  exact hall ⟨n, h⟩

theorem ofBase?_hex4 (upper : Bool) {n : ℕ} (h : n < 16 ^ 4) :
    ofBase? 16 (hex4 upper n) = some n := by
  have hdigit : ∀ k, hexValue? (hexDigit upper (k % 16)) = some (k % 16) := fun k =>
    hexValue?_hexDigit upper (Nat.mod_lt k (by decide))
  have hlt : ∀ k, k % 16 < 16 := fun k => Nat.mod_lt k (by decide)
  simp only [ofBase?, hex4, List.map_cons, List.map_nil, List.foldlM_cons, List.foldlM_nil,
    hdigit, Option.bind_eq_bind, Option.bind_some, hlt, if_true, Option.pure_def]
  congr 1
  omega

end GyroDelay.Text

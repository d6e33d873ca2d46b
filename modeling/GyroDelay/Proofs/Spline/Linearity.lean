import GyroDelay.Proofs.Spline.Shape

/-!
# Splines are linear in their values

In exact arithmetic the natural spline through linear combinations of values is the linear
combination of the splines (`through_mix`, `Natural.eval_mix`). Each stage of the construction
has the property, from the differences of the values to the equations for the second
derivatives, whose left sides depend on the knots only (`solveTridiagonal_mix`).
-/

namespace GyroDelay.Spline

/-! ## Linear combinations -/

/-- The linear combination of two lists, entry by entry. -/
noncomputable def mix (u v : ℝ) (xs ys : List ℝ) : List ℝ :=
  List.zipWith (fun x y => u * x + v * y) xs ys

theorem length_mix (u v : ℝ) {xs ys : List ℝ} (h : xs.length = ys.length) :
    (mix u v xs ys).length = xs.length := by
  rw [mix, List.length_zipWith, ← h, min_self]

theorem mix_map {β : Type} (u v : ℝ) (f g : β → ℝ) (l : List β) :
    mix u v (l.map f) (l.map g) = l.map fun a => u * f a + v * g a := by
  rw [mix, List.zipWith_map, List.zipWith_self]

theorem getLastD_zipWith {β γ δ : Type} (f : β → γ → δ) {xs : List β} {ys : List γ}
    (h : xs.length = ys.length) (b : β) (c : γ) :
    (List.zipWith f xs ys).getLastD (f b c) = f (xs.getLastD b) (ys.getLastD c) := by
  induction xs generalizing ys b c with
  | nil =>
    obtain rfl : ys = [] := List.length_eq_zero_iff.mp h.symm
    rfl
  | cons x xs ih =>
    obtain ⟨y, ys, rfl⟩ := List.exists_cons_of_length_eq_add_one h.symm
    rw [List.zipWith_cons_cons, List.getLastD_cons, List.getLastD_cons, List.getLastD_cons]
    exact ih (Nat.succ.inj h) x y

theorem getLastD_mix (u v : ℝ) {xs ys : List ℝ} (h : xs.length = ys.length) :
    (mix u v xs ys).getLastD 0 = u * xs.getLastD 0 + v * ys.getLastD 0 := by
  have hlast := getLastD_zipWith (fun x y => u * x + v * y) h 0 0
  rw [mul_zero, mul_zero, add_zero] at hlast
  exact hlast

theorem differences_mix (u v : ℝ) {xs ys : List ℝ} (h : xs.length = ys.length) :
    differences (mix u v xs ys) = mix u v (differences xs) (differences ys) := by
  apply List.ext_getElem
  · rw [length_differences, length_mix u v h,
      length_mix u v (by rw [length_differences, length_differences, h]), length_differences]
  · intro i _ _
    simp only [differences, mix, List.getElem_zipWith, List.getElem_tail]
    ring

theorem chords_mix (u v : ℝ) (knots : List ℝ) {xs ys : List ℝ} (h : xs.length = ys.length) :
    chords knots (mix u v xs ys) = mix u v (chords knots xs) (chords knots ys) := by
  rw [chords, differences_mix u v h]
  apply List.ext_getElem
  · simp only [mix, chords, List.length_zipWith, length_differences, h]
    omega
  · intro i _ _
    simp only [mix, chords, List.getElem_zipWith]
    ring

/-! ## The equations for the second derivatives -/

namespace Equation

/-- Whether two equations have the same left side. -/
def SameLeft (e f : Equation ℝ) : Prop := e.sub = f.sub ∧ e.diag = f.diag ∧ e.sup = f.sup

/-- An equation whose right side is a linear combination. -/
noncomputable def mix (u v : ℝ) (e f : Equation ℝ) : Equation ℝ :=
  { e with rhs := u * e.rhs + v * f.rhs }

end Equation

/-- An eliminated equation whose right side is a linear combination. -/
noncomputable def Eliminated.mix (u v : ℝ) (e f : Eliminated ℝ) : Eliminated ℝ :=
  { e with rhs := u * e.rhs + v * f.rhs }

section Elimination

variable (u v : ℝ)

theorem eliminate_mix {e f : Equation ℝ} (h : e.SameLeft f) {ps qs : List (Eliminated ℝ)}
    (hpq : List.Forall₂ (·.sup = ·.sup) ps qs) :
    (eliminate ps.head? e).sup = (eliminate qs.head? f).sup ∧
      eliminate (List.zipWith (Eliminated.mix u v) ps qs).head? (e.mix u v f) =
        (eliminate ps.head? e).mix u v (eliminate qs.head? f) := by
  obtain ⟨hsub, hdiag, hsup⟩ := h
  cases hpq with
  | nil =>
    simp only [eliminate, List.head?_nil, List.zipWith_nil_left, Equation.mix, Eliminated.mix,
      hdiag, hsup, Eliminated.mk.injEq, true_and]
    ring
  | cons hp _ =>
    simp only [eliminate, List.head?_cons, List.zipWith_cons_cons, Equation.mix, Eliminated.mix,
      hsub, hdiag, hsup, hp, Eliminated.mk.injEq, true_and]
    ring

theorem forward_mix {es fs : List (Equation ℝ)} (h : List.Forall₂ Equation.SameLeft es fs) :
    List.Forall₂ (·.sup = ·.sup) (forward es) (forward fs) ∧
      forward (List.zipWith (Equation.mix u v) es fs) =
        List.zipWith (Eliminated.mix u v) (forward es) (forward fs) := by
  have hrun (ps qs : List (Eliminated ℝ)) (hpq : List.Forall₂ (·.sup = ·.sup) ps qs) :
      List.Forall₂ (·.sup = ·.sup) (es.foldl (fun done e => eliminate done.head? e :: done) ps)
          (fs.foldl (fun done e => eliminate done.head? e :: done) qs) ∧
        (List.zipWith (Equation.mix u v) es fs).foldl
            (fun done e => eliminate done.head? e :: done)
            (List.zipWith (Eliminated.mix u v) ps qs) =
          List.zipWith (Eliminated.mix u v)
            (es.foldl (fun done e => eliminate done.head? e :: done) ps)
            (fs.foldl (fun done e => eliminate done.head? e :: done) qs) := by
    -- both sweeps keep equal upper entries, whatever they have eliminated so far
    induction h generalizing ps qs with
    | nil => exact ⟨hpq, rfl⟩
    | cons he _ ih =>
      obtain ⟨hsup, hmix⟩ := eliminate_mix u v he hpq
      have hnext := ih _ _ (List.Forall₂.cons hsup hpq)
      rw [List.zipWith_cons_cons, ← hmix] at hnext
      exact hnext
  exact hrun [] [] List.Forall₂.nil

theorem substitute_mix {p q : Eliminated ℝ} (h : p.sup = q.sup) {xs ys : List ℝ}
    (hxy : xs.length = ys.length) :
    substitute (mix u v xs ys) (p.mix u v q) = mix u v (substitute xs p) (substitute ys q) := by
  cases xs with
  | nil =>
    obtain rfl : ys = [] := List.length_eq_zero_iff.mp hxy.symm
    rfl
  | cons x xs =>
    obtain ⟨y, ys, rfl⟩ := List.exists_cons_of_length_eq_add_one hxy.symm
    simp only [substitute, mix, Eliminated.mix, List.zipWith_cons_cons, h, List.cons.injEq,
      and_true]
    ring

/-- The solution depends linearly on the right sides. -/
theorem solveTridiagonal_mix {es fs : List (Equation ℝ)}
    (h : List.Forall₂ Equation.SameLeft es fs) :
    solveTridiagonal (List.zipWith (Equation.mix u v) es fs) =
      mix u v (solveTridiagonal es) (solveTridiagonal fs) := by
  have hrun {ps qs : List (Eliminated ℝ)} (hpq : List.Forall₂ (·.sup = ·.sup) ps qs)
      (xs ys : List ℝ) (hxy : xs.length = ys.length) :
      (List.zipWith (Eliminated.mix u v) ps qs).foldl substitute (mix u v xs ys) =
        mix u v (ps.foldl substitute xs) (qs.foldl substitute ys) := by
    induction hpq generalizing xs ys with
    | nil => rfl
    | cons hp _ ih =>
      rw [List.zipWith_cons_cons, List.foldl_cons, substitute_mix u v hp hxy, ih, List.foldl_cons,
        List.foldl_cons]
      rw [length_substitute, length_substitute, hxy]
  obtain ⟨hsup, hforward⟩ := forward_mix u v h
  rw [solveTridiagonal, hforward]
  exact hrun hsup [] [] rfl

end Elimination

theorem bends_mix (u v : ℝ) (knots : List ℝ) {xs ys : List ℝ} (h : xs.length = ys.length) :
    bends knots (mix u v xs ys) = mix u v (bends knots xs) (bends knots ys) := by
  have hsystem :
      curvatureSystem (differences knots) (mix u v (chords knots xs) (chords knots ys)) =
        List.zipWith (Equation.mix u v) (curvatureSystem (differences knots) (chords knots xs))
          (curvatureSystem (differences knots) (chords knots ys)) := by
    apply List.ext_getElem
    · simp only [curvatureSystem, mix, chords, List.length_zipWith, List.length_zip,
        List.length_tail, length_differences, h]
      omega
    · intro i _ _
      simp only [curvatureSystem, mix, Equation.mix, List.getElem_zipWith, List.getElem_zip,
        List.getElem_tail, Equation.mk.injEq, true_and]
      ring
  have hleft : List.Forall₂ Equation.SameLeft
      (curvatureSystem (differences knots) (chords knots xs))
      (curvatureSystem (differences knots) (chords knots ys)) := by
    rw [List.forall₂_iff_get]
    constructor
    · simp only [curvatureSystem, chords, List.length_zipWith, List.length_zip, List.length_tail,
        length_differences, h]
    · intro i _ _
      simp only [curvatureSystem, List.get_eq_getElem, List.getElem_zipWith, List.getElem_zip]
      exact ⟨rfl, rfl, rfl⟩
  have hlen := (List.Forall₂.length_eq hleft)
  rw [bends, chords_mix u v knots h, curvatures, hsystem, solveTridiagonal_mix u v hleft, bends,
    bends, curvatures, curvatures]
  simp only [mix, List.cons_append, List.zipWith_cons_cons, Scalar.zero_real]
  rw [List.zipWith_append (by rw [length_solveTridiagonal, length_solveTridiagonal, hlen])]
  simp

/-! ## Pieces and splines -/

/-- The linear combination of two cubics. -/
noncomputable def Segment.mix (u v : ℝ) (s t : Segment ℝ) : Segment ℝ :=
  ⟨u * s.d + v * t.d, u * s.c + v * t.c, u * s.b + v * t.b, u * s.a + v * t.a⟩

/-- The linear combination of two cubics over the same piece. -/
noncomputable def Piece.mix (u v : ℝ) (p q : Piece ℝ) : Piece ℝ :=
  ⟨p.start, p.cubic.mix u v q.cubic⟩

/-- The linear combination of two splines over the same knots. -/
noncomputable def Natural.mix (u v : ℝ) (s t : Natural ℝ) : Natural ℝ :=
  { pieces := Array.zipWith (Piece.mix u v) s.pieces t.pieces
    lastKnot := s.lastKnot
    lastValue := u * s.lastValue + v * t.lastValue
    lastSlope := u * s.lastSlope + v * t.lastSlope }

theorem Segment.eval_mix (u v : ℝ) (s t : Segment ℝ) (x : ℝ) :
    (s.mix u v t).eval x = u * s.eval x + v * t.eval x := by
  simp only [Segment.eval, Segment.mix]
  ring

section Through

variable (u v : ℝ) {knots xs ys : List ℝ} (hx : knots.length = xs.length)
  (hy : knots.length = ys.length)

include hx hy

theorem cubics_mix (h2 : 2 ≤ xs.length) :
    cubics knots (mix u v xs ys) =
      List.zipWith (Segment.mix u v) (cubics knots xs) (cubics knots ys) := by
  have hxy : xs.length = ys.length := hx.symm.trans hy
  apply List.ext_getElem
  · rw [length_cubics (by rw [length_mix u v hxy, hx]) (by rw [length_mix u v hxy]; exact h2),
      length_mix u v hxy, List.length_zipWith, length_cubics hx h2,
      length_cubics hy (hxy ▸ h2), ← hxy, min_self]
  · intro i _ _
    simp only [cubics, chords_mix u v knots hxy, bends_mix u v knots hxy, List.getElem_zipWith,
      List.getElem_zip, List.getElem_tail]
    simp only [mix, List.getElem_zipWith, pieceCubic, Segment.mix, Segment.mk.injEq]
    refine ⟨?_, ?_, ?_, trivial⟩ <;> ring

/-- The spline through a linear combination of values. -/
theorem through_mix (h2 : 2 ≤ xs.length) :
    Natural.through knots (mix u v xs ys) =
      (Natural.through knots xs).mix u v (Natural.through knots ys) := by
  have hxy : xs.length = ys.length := hx.symm.trans hy
  have hlast : (List.zipWith (Segment.mix u v) (cubics knots xs) (cubics knots ys)).getLastD
      ⟨0, 0, 0, 0⟩ = ((cubics knots xs).getLastD ⟨0, 0, 0, 0⟩).mix u v
        ((cubics knots ys).getLastD ⟨0, 0, 0, 0⟩) := by
    have h0 : Segment.mix u v ⟨0, 0, 0, 0⟩ ⟨0, 0, 0, 0⟩ = ⟨0, 0, 0, 0⟩ := by
      simp [Segment.mix]
    rw [← getLastD_zipWith (Segment.mix u v) (by rw [length_cubics hx h2,
      length_cubics hy (hxy ▸ h2), hxy]), h0]
  rw [through_eq, through_eq, through_eq, cubics_mix u v hx hy h2, getLastD_mix u v hxy, hlast]
  simp only [Natural.mix, Natural.mk.injEq, true_and]
  refine ⟨?_, ?_⟩
  · rw [List.zipWith_toArray]
    congr 1
    apply List.ext_getElem
    · simp only [List.length_zipWith]
      omega
    · intro i _ _
      simp only [List.getElem_zipWith, Piece.mix]
  · simp only [endSlope, Segment.mix]
    ring

end Through

/-! ## Values -/

namespace Natural

/-- Whether two splines have the same knots. -/
def SameKnots (s t : Natural ℝ) : Prop :=
  s.pieces.map (·.start) = t.pieces.map (·.start) ∧ s.lastKnot = t.lastKnot

/-- The search depends only on which pieces start at or before the argument. -/
theorem startsUpTo_eq {P Q : Array (Piece ℝ)} {x y : ℝ}
    (h : ∀ i : ℕ, P[i]?.map (fun p => decide (p.start ≤ x)) =
      Q[i]?.map fun q => decide (q.start ≤ y))
    (low high : ℕ) : startsUpTo P x low high = startsUpTo Q y low high := by
  have hget (i : ℕ) (p : Piece ℝ) (hp : P[i]? = some p) :
      ∃ q, Q[i]? = some q ∧ (q.start ≤ y ↔ p.start ≤ x) := by
    have hi := h i
    rw [hp, Option.map_some] at hi
    obtain ⟨q, hq, hle⟩ := Option.map_eq_some_iff.mp hi.symm
    exact ⟨q, hq, decide_eq_decide.mp hle⟩
  fun_induction startsUpTo P x low high with
  | case1 low high hlt mid hnone =>
    have hq : Q[(low + high) / 2]? = none := by simpa [mid, hnone] using (h mid).symm
    rw [startsUpTo.eq_def]
    simp only [if_pos hlt, hq]
  | case2 low high hlt mid p hp hle ih =>
    obtain ⟨q, hq, hiff⟩ := hget mid p hp
    rw [ih, startsUpTo.eq_def Q y low high]
    simp only [if_pos hlt, show Q[(low + high) / 2]? = some q from hq, if_pos (hiff.mpr hle), mid]
  | case3 low high hlt mid p hp hle ih =>
    obtain ⟨q, hq, hiff⟩ := hget mid p hp
    rw [ih, startsUpTo.eq_def Q y low high]
    simp only [if_pos hlt, show Q[(low + high) / 2]? = some q from hq, if_neg (mt hiff.mp hle), mid]
  | case4 low high hge =>
    rw [startsUpTo, if_neg hge]

theorem startsUpTo_congr {P Q : Array (Piece ℝ)} (h : P.map (·.start) = Q.map (·.start))
    (x : ℝ) (low high : ℕ) : startsUpTo P x low high = startsUpTo Q x low high := by
  refine startsUpTo_eq (fun i => ?_) low high
  have hstart : P[i]?.map (·.start) = Q[i]?.map (·.start) := by
    rw [← Array.getElem?_map, ← Array.getElem?_map, h]
  have hdecide := congrArg (Option.map fun start : ℝ => decide (start ≤ x)) hstart
  rw [Option.map_map, Option.map_map] at hdecide
  exact hdecide

theorem getD_zipWith (u v : ℝ) {P Q : Array (Piece ℝ)} (h : P.size = Q.size) (i : ℕ)
    (p q : Piece ℝ) : (Array.zipWith (Piece.mix u v) P Q).getD i (p.mix u v q) =
      (P.getD i p).mix u v (Q.getD i q) := by
  rw [Array.getD_eq_getD_getElem?, Array.getD_eq_getD_getElem?, Array.getD_eq_getD_getElem?,
    Array.getElem?_zipWith]
  by_cases hi : i < P.size
  · rw [Array.getElem?_eq_getElem hi, Array.getElem?_eq_getElem (h ▸ hi)]
    rfl
  · rw [Array.getElem?_eq_none (by omega), Array.getElem?_eq_none (by omega)]
    rfl

/-- The piece past the last one, a straight line. -/
noncomputable def tail (s : Natural ℝ) : Piece ℝ := ⟨s.lastKnot, ⟨0, 0, s.lastSlope, s.lastValue⟩⟩

theorem eval_real (s : Natural ℝ) (x : ℝ) :
    s.eval x =
      let first := s.pieces.getD 0 s.tail
      let p := s.pieces.getD (startsUpTo s.pieces x 0 s.pieces.size - 1) s.tail
      if x < first.start then first.cubic.a + first.cubic.b * (x - first.start)
      else if s.lastKnot < x then s.lastValue + s.lastSlope * (x - s.lastKnot)
      else p.cubic.eval (x - p.start) := by
  rw [eval, pieceAt, tail, Scalar.zero_real]

variable {s t : Natural ℝ} (h : s.SameKnots t)

include h

theorem SameKnots.getD_start (i : ℕ) :
    (s.pieces.getD i s.tail).start = (t.pieces.getD i t.tail).start := by
  obtain ⟨hstart, hlast⟩ := h
  have hget (r : Natural ℝ) : (r.pieces.getD i r.tail).start =
      (r.pieces.map (·.start)).getD i r.lastKnot := by
    rw [Array.getD_eq_getD_getElem?, Array.getD_eq_getD_getElem?, Array.getElem?_map]
    cases r.pieces[i]? <;> rfl
  rw [hget, hget, hstart, hlast]

theorem SameKnots.mix (u v : ℝ) : (s.mix u v t).SameKnots s := by
  have hsize : s.pieces.size = t.pieces.size := by
    simpa using congrArg Array.size h.1
  refine ⟨?_, rfl⟩
  apply Array.ext
  · simp [Natural.mix, hsize]
  · intro i _ _
    simp [Natural.mix, Piece.mix]

/-- The value of a linear combination of splines. -/
theorem eval_mix (u v x : ℝ) : (s.mix u v t).eval x = u * s.eval x + v * t.eval x := by
  have hsize {r r' : Natural ℝ} (h : r.SameKnots r') : r.pieces.size = r'.pieces.size := by
    simpa using congrArg Array.size h.1
  have hplace {r r' : Natural ℝ} (h : r.SameKnots r') :
      startsUpTo r.pieces x 0 r.pieces.size = startsUpTo r'.pieces x 0 r'.pieces.size := by
    rw [startsUpTo_congr h.1, hsize h]
  have htail : (s.mix u v t).tail = s.tail.mix u v t.tail := by
    simp [tail, mix, Piece.mix, Segment.mix]
  have hget (i : ℕ) : (s.mix u v t).pieces.getD i (s.mix u v t).tail =
      (s.pieces.getD i s.tail).mix u v (t.pieces.getD i t.tail) := by
    rw [htail]
    exact getD_zipWith u v (hsize h) i _ _
  rw [eval_real, eval_real, eval_real, hplace (h.mix u v), ← hplace h]
  generalize startsUpTo s.pieces x 0 s.pieces.size - 1 = i
  have hfirst := h.getD_start 0
  have hi := h.getD_start i
  have hlast : (s.mix u v t).lastKnot = s.lastKnot := rfl
  simp only [hget, hlast, Piece.mix, ← h.2, ← hfirst, ← hi, Segment.eval_mix]
  by_cases hlow : x < (s.pieces.getD 0 s.tail).start
  · simp only [if_pos hlow, Segment.mix]
    ring
  · by_cases hhigh : s.lastKnot < x
    · simp only [if_neg hlow, if_pos hhigh, mix]
      ring
    · simp only [if_neg hlow, if_neg hhigh]

end Natural

section Through

variable {knots xs ys : List ℝ} (hx : knots.length = xs.length)
  (hy : knots.length = ys.length) (h2 : 2 ≤ xs.length)

include hx hy h2

theorem sameKnots_through : (Natural.through knots xs).SameKnots (Natural.through knots ys) := by
  constructor
  · rw [← Array.toList_inj, Array.toList_map, Array.toList_map, map_start_pieces hx h2,
      map_start_pieces hy (by omega)]
  · rw [through_eq, through_eq]

theorem eval_through_mix (u v x : ℝ) :
    (Natural.through knots (mix u v xs ys)).eval x =
      u * (Natural.through knots xs).eval x + v * (Natural.through knots ys).eval x := by
  rw [through_mix u v hx hy h2, Natural.eval_mix (sameKnots_through hx hy h2)]

end Through

end GyroDelay.Spline

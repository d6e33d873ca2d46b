import Mathlib.Data.List.DropRight
import Mathlib.Data.Prod.Lex
import GyroDelay.Proofs.Doubles.Arithmetic
import GyroDelay.Proofs.Statistics
import GyroDelay.Statistics.Tally

/-!
# A tally is that of its events

After any sequence of events a tally holds what one counts over the events since the last reset
(`Records`). One event adds to each of its numbers what it adds to the counts, so this passes from
one event to the next; a reset leaves no events to count. What is reported is the summary of the
tally, which has the same counts and the statistics of the same numbers (`TallySummary.Reports`).

Failures are counted by kind in a list with increasing kinds. Such a list is determined by what one
finds in it (`Increasing.ext`), so it does not depend on the order of the failures, and neither does
anything else that is reported in exact arithmetic, up to the printed text.
-/

namespace GyroDelay

/-! ## Counts by kind -/

/-- Whether the kinds of a list of counts are increasing. -/
def Increasing (counts : List (String × ℕ)) : Prop := counts.Pairwise (·.1 < ·.1)

theorem lookup_cons_eq (c : String × ℕ) (counts : List (String × ℕ)) (kind : String) :
    (c :: counts).lookup kind = if kind = c.1 then some c.2 else counts.lookup kind := by
  by_cases h : kind = c.1
  · rw [if_pos h, List.lookup_cons, beq_iff_eq.mpr h]
  · rw [if_neg h, List.lookup_cons, beq_eq_false_iff_ne.mpr h]

theorem lookup_eq_none {counts : List (String × ℕ)} {kind : String}
    (h : ∀ c ∈ counts, kind < c.1) : counts.lookup kind = none := by
  rw [List.lookup_eq_none_iff]
  intro c hc
  exact bne_iff_ne.mpr (h c hc).ne

namespace Increasing

variable {c : String × ℕ} {counts : List (String × ℕ)}

theorem head (h : Increasing (c :: counts)) : ∀ d ∈ counts, c.1 < d.1 := (List.pairwise_cons.mp h).1

theorem tail (h : Increasing (c :: counts)) : Increasing counts := (List.pairwise_cons.mp h).2

theorem cons_of_lt (h : Increasing (c :: counts)) {d : String × ℕ} (hlt : d.1 < c.1) :
    Increasing (d :: c :: counts) := by
  refine List.pairwise_cons.mpr ⟨?_, h⟩
  intro e he
  rcases List.mem_cons.mp he with rfl | he
  · exact hlt
  · exact hlt.trans (h.head e he)

theorem mem_iff (h : Increasing counts) (c : String × ℕ) :
    c ∈ counts ↔ counts.lookup c.1 = some c.2 := by
  induction counts with
  | nil => simp
  | cons d counts ih =>
    rw [List.mem_cons, lookup_cons_eq]
    split
    · rename_i heq
      have hnot : c ∉ counts := fun hc => lt_irrefl d.1 (heq ▸ h.head c hc)
      rw [or_iff_left hnot, Option.some_inj, Prod.ext_iff, and_iff_right heq, eq_comm]
    · rename_i hne
      rw [or_iff_right fun heq => hne (congrArg Prod.fst heq), ih h.tail]

/-- What one finds in a list with increasing kinds determines it. -/
theorem ext {counts' : List (String × ℕ)} (h : Increasing counts) (h' : Increasing counts')
    (hlookup : ∀ kind, counts.lookup kind = counts'.lookup kind) : counts = counts' := by
  have hirrefl (a b : String × ℕ) (hab : a.1 < b.1) (hba : b.1 < a.1) : a = b :=
    absurd (hab.trans hba) (lt_irrefl _)
  have hnodup {l : List (String × ℕ)} (hl : Increasing l) : l.Nodup :=
    hl.imp fun hlt heq => hlt.ne (congrArg Prod.fst heq)
  refine List.Perm.eq_of_pairwise (fun a b _ _ => hirrefl a b) h h' ?_
  rw [List.perm_ext_iff_of_nodup (hnodup h) (hnodup h')]
  intro c
  rw [h.mem_iff, h'.mem_iff, hlookup]

end Increasing

theorem fst_mem_countUp {key : String} {counts : List (String × ℕ)} {c : String × ℕ}
    (h : c ∈ countUp key counts) : c.1 = key ∨ ∃ d ∈ counts, d.1 = c.1 := by
  induction counts with
  | nil => exact Or.inl (by rw [List.mem_singleton.mp h])
  | cons e counts ih =>
    rw [countUp] at h
    split at h
    · rcases List.mem_cons.mp h with rfl | h
      · exact Or.inr ⟨e, List.mem_cons_self, rfl⟩
      · exact Or.inr ⟨c, List.mem_cons_of_mem e h, rfl⟩
    · split at h
      · rcases List.mem_cons.mp h with rfl | h
        · exact Or.inl rfl
        · exact Or.inr ⟨c, h, rfl⟩
      · rcases List.mem_cons.mp h with rfl | h
        · exact Or.inr ⟨_, List.mem_cons_self, rfl⟩
        · exact (ih h).imp_right fun ⟨d, hd, hfst⟩ => ⟨d, List.mem_cons_of_mem e hd, hfst⟩

theorem increasing_countUp {counts : List (String × ℕ)} (h : Increasing counts) (key : String) :
    Increasing (countUp key counts) := by
  induction counts with
  | nil => exact List.pairwise_singleton _ _
  | cons c counts ih =>
    rw [countUp]
    split
    · exact List.pairwise_cons.mpr ⟨h.head, h.tail⟩
    · rename_i hne
      split
      · rename_i hlt
        exact h.cons_of_lt hlt
      · rename_i hle
        refine List.pairwise_cons.mpr ⟨?_, ih h.tail⟩
        intro d hd
        rcases fst_mem_countUp hd with hd | ⟨e, he, hfst⟩
        · exact hd ▸ lt_of_le_of_ne (not_lt.mp hle) (Ne.symm hne)
        · exact hfst ▸ h.head e he

theorem lookup_countUp {counts : List (String × ℕ)} (h : Increasing counts) (key kind : String) :
    (countUp key counts).lookup kind =
      if kind = key then some ((counts.lookup key).getD 0 + 1) else counts.lookup kind := by
  induction counts with
  | nil => exact lookup_cons_eq _ _ _
  | cons c counts ih =>
    rw [countUp]
    split
    · rename_i heq
      simp only [lookup_cons_eq, ← heq, if_true, Option.getD_some]
      split <;> rfl
    · rename_i hne
      split
      · rename_i hlt
        -- a kind that goes before all others has not been counted yet
        have hnone : (c :: counts).lookup key = none :=
          lookup_eq_none (List.pairwise_cons.mp (h.cons_of_lt (d := (key, 1)) hlt)).1
        rw [hnone, lookup_cons_eq]
        rfl
      · rw [lookup_cons_eq, ih h.tail, lookup_cons_eq, lookup_cons_eq, if_neg hne]
        split
        · rename_i heq
          rw [if_neg fun hkey => hne (hkey.symm.trans heq)]
        · rfl

theorem sum_countUp (key : String) (counts : List (String × ℕ)) :
    ((countUp key counts).map Prod.snd).sum = (counts.map Prod.snd).sum + 1 := by
  induction counts with
  | nil => rfl
  | cons c counts ih =>
    rw [countUp]
    split
    · simp only [List.map_cons, List.sum_cons]
      omega
    · split
      · simp only [List.map_cons, List.sum_cons]
        omega
      · simp only [List.map_cons, List.sum_cons, ih]
        omega

/-! ## The order of the listing -/

theorem isListedBefore_iff (a b : String × ℕ) : isListedBefore a b ↔ toLex a ≤ toLex b := by
  rw [Prod.Lex.toLex_le_toLex]
  simp [isListedBefore]

/-- The counts are listed in one order, in whichever order they are stored. -/
theorem mergeSort_eq_of_perm {counts counts' : List (String × ℕ)} (h : counts'.Perm counts) :
    counts'.mergeSort isListedBefore = counts.mergeSort isListedBefore := by
  have hsorted (l : List (String × ℕ)) :
      (l.mergeSort isListedBefore).Pairwise fun a b => isListedBefore a b := by
    apply List.pairwise_mergeSort
    · simp only [isListedBefore_iff]
      exact fun a b c => le_trans
    · simp only [Bool.or_eq_true, isListedBefore_iff]
      exact fun a b => le_total _ _
  refine List.Perm.eq_of_pairwise ?_ (hsorted _) (hsorted _)
    ((List.mergeSort_perm _ _).trans (h.trans (List.mergeSort_perm _ _).symm))
  intro a b _ _ hab hba
  rw [isListedBefore_iff] at hab hba
  exact toLex.injective (le_antisymm hab hba)

namespace TallySummary

variable {α : Type}

theorem renderWith_eq_of_perm (fixed : ℕ → α → String) (s : TallySummary α)
    {counts : List (String × ℕ)} (h : counts.Perm s.failureCounts) :
    renderWith fixed { s with failureCounts := counts } = renderWith fixed s := by
  unfold renderWith
  dsimp only
  rw [mergeSort_eq_of_perm h]

end TallySummary

/-! ## Events since the last reset -/

/-- What an event tells of an estimation that succeeded. -/
structure Success (α : Type) where
  delay : α
  corrected : Bool
  offset : Option α

/-- Whether a summary reports successes and failures, given by their kinds. -/
structure TallySummary.Reports {α : Type} [Scalar α] (s : TallySummary α)
    (found : List (Success α)) (kinds : List String) : Prop where
  total : s.total = found.length + kinds.length
  successes : s.successes = found.length
  failures : s.failures = kinds.length
  sum_failureCounts : (s.failureCounts.map Prod.snd).sum = kinds.length
  lookup_failureCounts : ∀ kind, s.failureCounts.lookup kind =
    if kind ∈ kinds then some (kinds.count kind) else none
  increasing : Increasing s.failureCounts
  corrections : s.corrections = found.countP (·.corrected)
  delays : s.delays.Reports (found.map fun s => s.delay * Scalar.ofNat 1000)
  offsets : s.offsets.Reports (found.filterMap fun s => s.offset.map (· * Scalar.ofNat 1000))

namespace TallyEvent

variable {α : Type}

def isReset : TallyEvent α → Bool
  | .reset => true
  | _ => false

def success? : TallyEvent α → Option (Success α)
  | .success delay corrected offset => some ⟨delay, corrected, offset⟩
  | _ => none

def kind? : TallyEvent α → Option String
  | .failure kind => some kind
  | _ => none

end TallyEvent

namespace Tally

variable {α : Type}

/-- The events after the last reset. -/
def sinceReset (events : List (TallyEvent α)) : List (TallyEvent α) :=
  events.rtakeWhile fun event => !event.isReset

/-- The successes, in their order. -/
def successesOf (events : List (TallyEvent α)) : List (Success α) :=
  events.filterMap TallyEvent.success?

/-- The kinds of the failures, in their order. -/
def kindsOf (events : List (TallyEvent α)) : List String := events.filterMap TallyEvent.kind?

theorem sinceReset_concat (events : List (TallyEvent α)) {event : TallyEvent α}
    (h : event.isReset = false) : sinceReset (events ++ [event]) = sinceReset events ++ [event] :=
  List.rtakeWhile_concat_pos _ _ _ (by rw [h, Bool.not_false])

theorem sinceReset_reset (events : List (TallyEvent α)) : sinceReset (events ++ [.reset]) = [] :=
  List.rtakeWhile_concat_neg _ _ _ Bool.false_ne_true

theorem successesOf_append (events events' : List (TallyEvent α)) :
    successesOf (events ++ events') = successesOf events ++ successesOf events' :=
  List.filterMap_append

theorem kindsOf_append (events events' : List (TallyEvent α)) :
    kindsOf (events ++ events') = kindsOf events ++ kindsOf events' :=
  List.filterMap_append

theorem length_successesOf_add (events : List (TallyEvent α)) :
    (successesOf events).length + (kindsOf events).length ≤ events.length := by
  induction events with
  | nil => exact le_rfl
  | cons event events ih =>
    rw [List.length_cons]
    cases event with
    | success delay corrected offset =>
      exact (Nat.add_right_comm _ 1 _).trans_le (Nat.succ_le_succ ih)
    | failure kind => exact Nat.succ_le_succ ih
    | reset => exact ih.trans (Nat.le_succ _)

variable [Scalar α]

open Scalar

/-- Whether a tally is that of successes and of failures, given by their kinds. -/
structure Records (t : Tally α) (found : List (Success α)) (kinds : List String) : Prop where
  successes : t.successes = found.length
  failures : t.failures = kinds.length
  sum_failureCounts : (t.failureCounts.map Prod.snd).sum = kinds.length
  lookup_failureCounts : ∀ kind, t.failureCounts.lookup kind =
    if kind ∈ kinds then some (kinds.count kind) else none
  increasing : Increasing t.failureCounts
  corrections : t.corrections = found.countP (·.corrected)
  delays : t.delays = Running.ofList (found.map fun s => s.delay * ofNat 1000)
  offsets : t.offsets = Running.ofList (found.filterMap fun s => s.offset.map (· * ofNat 1000))

theorem records_empty : (empty : Tally α).Records [] [] where
  successes := rfl
  failures := rfl
  sum_failureCounts := rfl
  lookup_failureCounts _ := rfl
  increasing := List.Pairwise.nil
  corrections := rfl
  delays := rfl
  offsets := rfl

namespace Records

variable {t : Tally α} {found : List (Success α)} {kinds : List String} (h : t.Records found kinds)

include h

theorem success (delay : α) (corrected : Bool) (offset : Option α) :
    (t.success delay corrected offset).Records (found ++ [⟨delay, corrected, offset⟩]) kinds where
  successes := by
    rw [List.length_append, ← h.successes]
    rfl
  failures := h.failures
  sum_failureCounts := h.sum_failureCounts
  lookup_failureCounts := h.lookup_failureCounts
  increasing := h.increasing
  corrections := by
    rw [List.countP_append, ← h.corrections]
    cases corrected <;> rfl
  delays := by
    rw [List.map_append, List.map_singleton, Running.ofList_concat, ← h.delays]
    rfl
  offsets := by
    rw [List.filterMap_append]
    cases offset with
    | none => exact h.offsets.trans (congrArg Running.ofList (List.append_nil _).symm)
    | some o =>
      refine Eq.trans ?_ (Running.ofList_concat _ _).symm
      rw [← h.offsets]
      rfl

theorem lookup_failure (kind other : String) : (t.failure kind).failureCounts.lookup other =
    if other ∈ kinds ++ [kind] then some ((kinds ++ [kind]).count other) else none := by
  refine (lookup_countUp h.increasing kind other).trans ?_
  rw [h.lookup_failureCounts, h.lookup_failureCounts]
  split
  · rename_i heq
    rw [heq, if_pos List.mem_concat_self, List.count_append, List.count_singleton_self]
    split
    · rfl
    · rename_i hnot
      rw [List.count_eq_zero_of_not_mem hnot]
      rfl
  · rename_i hne
    have hcount : (kinds ++ [kind]).count other = kinds.count other := by
      rw [List.count_append, List.count_eq_zero_of_not_mem (mt List.mem_singleton.mp hne)]
      rfl
    simp only [hcount, List.mem_append, List.mem_singleton, hne, or_false]

theorem failure (kind : String) : (t.failure kind).Records found (kinds ++ [kind]) where
  successes := h.successes
  failures := by
    rw [List.length_append, ← h.failures]
    rfl
  sum_failureCounts := by
    rw [List.length_append, ← h.sum_failureCounts]
    exact sum_countUp kind t.failureCounts
  lookup_failureCounts := h.lookup_failure kind
  increasing := increasing_countUp h.increasing kind
  corrections := h.corrections
  delays := h.delays
  offsets := h.offsets

theorem total_eq : t.total = found.length + kinds.length := by
  rw [total, h.successes, h.failures]

end Records

/-- **The tally of events** is that of the successes and failures after the last reset. -/
theorem records_ofEvents (events : List (TallyEvent α)) :
    (ofEvents events).Records (successesOf (sinceReset events)) (kindsOf (sinceReset events)) := by
  -- the last event adds to what was counted before it, or was a reset
  induction events using List.reverseRecOn with
  | nil => exact records_empty
  | append_singleton events event ih =>
    rw [ofEvents, List.foldl_concat]
    cases event with
    | success delay corrected offset =>
      rw [sinceReset_concat events rfl, successesOf_append, kindsOf_append]
      exact (List.append_nil (kindsOf _)).symm ▸ ih.success delay corrected offset
    | failure kind =>
      rw [sinceReset_concat events rfl, successesOf_append, kindsOf_append]
      exact (List.append_nil (successesOf _)).symm ▸ ih.failure kind
    | reset =>
      rw [sinceReset_reset]
      exact records_empty

theorem total_ofEvents_le (events : List (TallyEvent α)) :
    (ofEvents events).total ≤ events.length := by
  rw [(records_ofEvents events).total_eq]
  exact (length_successesOf_add _).trans (List.rtakeWhile_suffix _ _).length_le

/-! ## The summary -/

theorem Records.reports {t : Tally α} {found : List (Success α)} {kinds : List String}
    (h : t.Records found kinds) : t.summary.Reports found kinds where
  total := h.total_eq
  successes := h.successes
  failures := h.failures
  sum_failureCounts := h.sum_failureCounts
  lookup_failureCounts := h.lookup_failureCounts
  increasing := h.increasing
  corrections := h.corrections
  delays := by
    rw [summary, h.delays]
    exact Running.reports_summary _
  offsets := by
    rw [summary, h.offsets]
    exact Running.reports_summary _

/-! ## The share of successes -/

theorem successRate_real (t : Tally ℝ) :
    t.successRate = if t.total = 0 then 0 else 100 * (t.successes : ℝ) / t.total := by
  rw [successRate, zero_real]
  split
  · rfl
  · rw [ofNat_real, ofNat_real, ofNat_real, Nat.cast_ofNat]
    ring

theorem successRate_mem_Icc (t : Tally ℝ) : t.successRate ∈ Set.Icc 0 100 := by
  rw [successRate_real]
  split
  · exact ⟨le_rfl, by norm_num⟩
  · rename_i hne
    have hpos : (0 : ℝ) < t.total := Nat.cast_pos.mpr (Nat.pos_of_ne_zero hne)
    have hle : (t.successes : ℝ) ≤ t.total := Nat.cast_le.mpr (Nat.le_add_right _ _)
    refine ⟨by positivity, ?_⟩
    rw [div_le_iff₀ hpos]
    linarith

open Doubles in
theorem successRate_float {t : Tally Float} (h : t.total < 2 ^ 64) :
    (t.total = 0 → t.successRate = 0) ∧ 0 ≤ t.successRate ∧ t.successRate ≤ 100 ∧
      |content (value t.successRate) - 100 * t.successes / t.total| ≤
        100 * t.successes / t.total * (8 * roundoff) := by
  rw [successRate]
  split
  · rename_i hempty
    change (t.total = 0 → (0 : Float) = 0) ∧ (0 : Float) ≤ 0 ∧ (0 : Float) ≤ 100 ∧
      |content (value 0) - _| ≤ _
    rw [represents_zero.le_iff_le represents_zero, represents_zero.le_iff_le represents_hundred,
      represents_zero.content_eq, hempty, Nat.cast_zero, div_zero]
    norm_num
  · rename_i hne
    refine ⟨fun hempty => absurd hempty hne, ?_⟩
    exact share_spec (Nat.le_add_right _ _) (Nat.pos_of_ne_zero hne) h

/-! ## The order of the events -/

/-- In exact arithmetic a tally is determined by its events, whatever their order. -/
theorem Records.eq_of_perm {t t' : Tally ℝ} {found found' : List (Success ℝ)}
    {kinds kinds' : List String} (h : t.Records found kinds)
    (h' : t'.Records found' kinds') (hfound : found'.Perm found)
    (hkinds : kinds'.Perm kinds) : t' = t := by
  have hcounts : t'.failureCounts = t.failureCounts := by
    refine h'.increasing.ext h.increasing fun kind => ?_
    rw [h'.lookup_failureCounts, h.lookup_failureCounts, hkinds.count_eq]
    simp only [hkinds.mem_iff]
  have hdelays : t'.delays = t.delays := by
    rw [h'.delays, h.delays]
    exact Running.ofList_eq_of_perm (hfound.map _)
  have hoffsets : t'.offsets = t.offsets := by
    rw [h'.offsets, h.offsets]
    exact Running.ofList_eq_of_perm (hfound.filterMap _)
  have hn : t'.successes = t.successes := by
    rw [h'.successes, h.successes, hfound.length_eq]
  have hm : t'.failures = t.failures := by rw [h'.failures, h.failures, hkinds.length_eq]
  have hcorrections : t'.corrections = t.corrections := by
    rw [h'.corrections, h.corrections, hfound.countP_eq]
  cases t
  cases t'
  simp only [mk.injEq]
  exact ⟨hn, hm, hcorrections, hdelays, hoffsets, hcounts⟩

theorem ofEvents_eq_of_perm {events events' : List (TallyEvent ℝ)}
    (h : (sinceReset events').Perm (sinceReset events)) : ofEvents events' = ofEvents events :=
  (records_ofEvents events).eq_of_perm (records_ofEvents events') (h.filterMap _) (h.filterMap _)

open Doubles TallySummary in
/-- **The tally of events.** It counts and measures the successes and the failures after the last
reset, and its summary reports just these. The share of successes lies between 0 and 100; as a
double it is off by at most four roundings. In exact arithmetic neither the order of the events
matters to what is reported, nor the order in which the counts by kind are stored to the text. -/
theorem ofEvents_exact :
    (∀ {α : Type} [Scalar α] (events : List (TallyEvent α)),
      (ofEvents events).Records (successesOf (sinceReset events)) (kindsOf (sinceReset events)) ∧
        (ofEvents events).summary.Reports (successesOf (sinceReset events))
          (kindsOf (sinceReset events)) ∧
        (ofEvents events).total =
          (successesOf (sinceReset events)).length + (kindsOf (sinceReset events)).length ∧
        (ofEvents events).summary.total ≤ events.length) ∧
      (∀ events : List (TallyEvent ℝ),
        (ofEvents events).summary.successRate = (if (ofEvents events).summary.total = 0 then 0
          else 100 * ((ofEvents events).summary.successes : ℝ) /
            (ofEvents events).summary.total) ∧
        (ofEvents events).summary.successRate ∈ Set.Icc 0 100) ∧
      (∀ events : List (TallyEvent Float), events.length < 2 ^ 64 →
        ((ofEvents events).summary.total = 0 → (ofEvents events).summary.successRate = 0) ∧
          0 ≤ (ofEvents events).summary.successRate ∧
          (ofEvents events).summary.successRate ≤ 100 ∧
          |content (value (ofEvents events).summary.successRate) -
              100 * (ofEvents events).summary.successes / (ofEvents events).summary.total| ≤
            100 * (ofEvents events).summary.successes / (ofEvents events).summary.total *
              (8 * roundoff)) ∧
      ∀ events events' : List (TallyEvent ℝ), (sinceReset events').Perm (sinceReset events) →
        (ofEvents events').summary = (ofEvents events).summary ∧
          ∀ (fixed : ℕ → ℝ → String) (counts : List (String × ℕ)),
            counts.Perm (ofEvents events').failureCounts →
              renderWith fixed { (ofEvents events').summary with failureCounts := counts } =
                renderWith fixed (ofEvents events).summary := by
  refine ⟨?_, ?_, ?_, ?_⟩
  · intro α _ events
    have hrecords := records_ofEvents events
    exact ⟨hrecords, hrecords.reports, hrecords.total_eq, total_ofEvents_le events⟩
  · exact fun events => ⟨successRate_real _, successRate_mem_Icc _⟩
  · exact fun events h => successRate_float ((total_ofEvents_le events).trans_lt h)
  · intro events events' h
    rw [ofEvents_eq_of_perm h]
    exact ⟨rfl, fun fixed counts hcounts => renderWith_eq_of_perm fixed _ hcounts⟩

/-- A success and a failure in both orders, once after a reset. One of the two succeeded. -/
theorem ofEvents_exact_two :
    ([.success 1 true none, .failure "late"] : List (TallyEvent Float)).length < 2 ^ 64 ∧
      0 ≤ (ofEvents [.success (1 : Float) true none, .failure "late"]).summary.successRate ∧
      (ofEvents [.success (1 : Float) true none, .failure "late"]).summary.successRate ≤ 100 ∧
      (ofEvents [.success (1 : ℝ) true none, .failure "late"]).summary.total = 2 ∧
      (ofEvents [.success (1 : ℝ) true none, .failure "late"]).summary.successRate = 50 ∧
      (sinceReset [.failure "late", .reset, .failure "late", .success (1 : ℝ) true none]).Perm
        (sinceReset [.success (1 : ℝ) true none, .failure "late"]) ∧
      (ofEvents [.failure "late", .reset, .failure "late", .success (1 : ℝ) true none]).summary =
        (ofEvents [.success (1 : ℝ) true none, .failure "late"]).summary := by
  obtain ⟨hreports, hreal, hrate, horder⟩ := ofEvents_exact
  have hlength : ([.success 1 true none, .failure "late"] : List (TallyEvent Float)).length <
      2 ^ 64 := by decide
  have hperm : (sinceReset
      [.failure "late", .reset, .failure "late", .success (1 : ℝ) true none]).Perm
      (sinceReset [.success (1 : ℝ) true none, .failure "late"]) := .swap _ _ []
  obtain ⟨-, hnonneg, hle, -⟩ := hrate _ hlength
  obtain ⟨-, htwo, -⟩ := hreports [.success (1 : ℝ) true none, .failure "late"]
  have htotal : (ofEvents [.success (1 : ℝ) true none, .failure "late"]).summary.total = 2 :=
    htwo.total
  have hsuccesses :
      (ofEvents [.success (1 : ℝ) true none, .failure "late"]).summary.successes = 1 :=
    htwo.successes
  have hhalf := (hreal [.success (1 : ℝ) true none, .failure "late"]).1
  rw [htotal, hsuccesses] at hhalf
  refine ⟨hlength, hnonneg, hle, htotal, ?_, hperm, (horder _ _ hperm).1⟩
  rw [hhalf]
  norm_num

end Tally

end GyroDelay

import GyroDelay.Proofs.Estimation.Invariant
import GyroDelay.Proofs.Metrics

/-!
# Every call is accounted for

Any number of estimators are called in any order, and one registry takes what is measured. A call
that asks for the delay may resample first, and may fail after that, so intervals and estimations
are counted apart: a visit measures the interval that it fixed, if it fixed one, and then the
outcome of the estimation, if it was asked for one (`Visit.events_eq`). What a registry holds of a
history is read off these two lists (`registry_accounts`).
-/

namespace GyroDelay

theorem Fault.kind_ne_ok {α : Type} (fault : Fault α) : fault.kind ≠ "ok" := by
  cases fault <;> simp [Fault.kind]

namespace Estimator

open Metrics Scalar

/-- A call, with the estimator as the call finds it. -/
structure Visit (α : Type) where
  before : Estimator α
  call : Call α

variable {α : Type} [Scalar α]

/-- The outcomes of estimations that failed with a kind of fault. -/
def failedWith (kind : String) : Except (Fault α) (Estimate α) → Bool
  | .ok _ => false
  | .error fault => fault.kind = kind

namespace Visit

/-- What is measured of a visit. -/
def events (v : Visit α) : List (Event α) :=
  match v.call with
  | .resample accuracy => (v.before.resample accuracy).events
  | .estimateDelay => v.before.estimateDelay.events

/-- The outcome of the estimation, if the call asks for the delay. -/
def estimation? (v : Visit α) : Option (Except (Fault α) (Estimate α)) :=
  match v.call with
  | .resample _ => none
  | .estimateDelay => some v.before.estimateDelay.result

/-- The outcome of the resampling that the call asks for, or that the estimation begins with
because the interval is not fixed yet. -/
def resampling? (v : Visit α) : Option (Except (Fault α) α) :=
  match v.call with
  | .resample accuracy => some (v.before.resample accuracy).result
  | .estimateDelay =>
    if v.before.interval = none then some (v.before.resample v.before.settings.accuracy).result
    else none

/-- The interval that the visit fixed. -/
def interval? (v : Visit α) : Option α := v.resampling?.bind Except.toOption

theorem events_resample (e : Estimator α) (accuracy : α) :
    (e.resample accuracy).events =
      (e.resample accuracy).result.toOption.toList.map Event.resampled := by
  rw [resample_events]
  cases (e.resample accuracy).result with
  | ok interval => rfl
  | error fault => rfl

theorem events_eq (v : Visit α) :
    v.events = v.interval?.toList.map .resampled ++ v.estimation?.toList.map measure := by
  rcases v with ⟨e, accuracy | _⟩
  · exact (events_resample e accuracy).trans (List.append_nil _).symm
  · rw [events, interval?, resampling?, estimation?, estimateDelay_events]
    dsimp only
    split
    · rw [events_resample]
      rfl
    · rfl

end Visit

/-! ## Histories -/

/-- The visits that calls on several estimators make. -/
def visits {ι : Type} [DecidableEq ι] (es : ι → Estimator α) : List (ι × Call α) → List (Visit α)
  | [] => []
  | (i, c) :: cs => ⟨es i, c⟩ :: visits (Function.update es i ((es i).call c)) cs

/-- What is measured of visits. -/
def eventsOf (vs : List (Visit α)) : List (Event α) := vs.flatMap Visit.events

/-- The outcomes of the estimations, in their order. -/
def outcomes (vs : List (Visit α)) : List (Except (Fault α) (Estimate α)) :=
  vs.filterMap Visit.estimation?

/-- The estimates that were found, in their order. -/
def found (vs : List (Visit α)) : List (Estimate α) := (outcomes vs).filterMap Except.toOption

/-- The intervals that were fixed, in their order. -/
def intervals (vs : List (Visit α)) : List α := vs.filterMap Visit.interval?

theorem length_outcomes_visits {ι : Type} [DecidableEq ι] (es : ι → Estimator α)
    (cs : List (ι × Call α)) :
    (outcomes (visits es cs)).length = cs.countP (· matches (_, .estimateDelay)) := by
  induction cs generalizing es with
  | nil => rfl
  | cons c cs ih =>
    rcases c with ⟨i, accuracy | _⟩
    · exact ih _
    · rw [List.countP_cons_of_pos rfl]
      exact congrArg (· + 1) (ih _)

section Collecting

variable {β : Type} {f : Event α → List β}

/-- What is collected from the outcomes only. -/
theorem flatMap_eventsOf_outcomes (hf : ∀ interval, f (.resampled interval) = [])
    (vs : List (Visit α)) :
    (eventsOf vs).flatMap f = (outcomes vs).flatMap fun r => f (measure r) := by
  rw [eventsOf, outcomes, List.filterMap_eq_flatMap_toList, List.flatMap_assoc, List.flatMap_assoc]
  congr 1
  funext v
  have hnone : v.interval?.toList.flatMap (fun i => f (.resampled i)) = [] :=
    List.flatMap_eq_nil_iff.mpr fun i _ => hf i
  rw [v.events_eq, List.flatMap_append, List.flatMap_map, List.flatMap_map, hnone, List.nil_append]

/-- What is collected from the intervals only. -/
theorem flatMap_eventsOf_intervals (hf : ∀ r, f (measure r) = []) (vs : List (Visit α)) :
    (eventsOf vs).flatMap f = (intervals vs).flatMap fun i => f (.resampled i) := by
  rw [eventsOf, intervals, List.filterMap_eq_flatMap_toList, List.flatMap_assoc,
    List.flatMap_assoc]
  congr 1
  funext v
  have hnone : v.estimation?.toList.flatMap (fun r => f (measure r)) = [] :=
    List.flatMap_eq_nil_iff.mpr fun r _ => hf r
  rw [v.events_eq, List.flatMap_append, List.flatMap_map, List.flatMap_map, hnone, List.append_nil]

end Collecting

/-- No counter grows when an interval is fixed. -/
theorem sum_countOf_eventsOf (p : Series → Bool) (vs : List (Visit α)) :
    ((eventsOf vs).map (countOf p)).sum =
      ((outcomes vs).map fun r => countOf p (measure r)).sum := by
  have hunits := congrArg List.length
    (flatMap_eventsOf_outcomes (f := fun e => List.replicate (countOf p e) ()) (fun _ => rfl) vs)
  simpa only [List.length_flatMap, List.length_replicate] using hunits

/-! ## The series of the estimations -/

theorem sum_map_toNat {β : Type} (q : β → Bool) (xs : List β) :
    (xs.map fun x => (q x).toNat).sum = xs.countP q := by
  induction xs with
  | nil => rfl
  | cons x xs ih =>
    rw [List.map_cons, List.sum_cons, ih, List.countP_cons, Nat.add_comm]
    cases q x <;> rfl

section Counters

variable {q : Except (Fault α) (Estimate α) → Bool}

/-- The counters of a set of series, by what the outcome of an estimation adds to them. -/
theorem countIn_eventsOf {p : Series → Bool} (hq : ∀ r, countOf p (measure r) = (q r).toNat)
    (vs : List (Visit α)) :
    countIn p (Registry.ofEvents (eventsOf vs)).counters = (outcomes vs).countP q := by
  rw [Registry.countIn_ofEvents, sum_countOf_eventsOf, ← sum_map_toNat]
  simp only [hq]

theorem valueOf_eventsOf {s : Series} (hq : ∀ r, countOf (· = s) (measure r) = (q r).toNat)
    (vs : List (Visit α)) :
    (valueOf s (Registry.ofEvents (eventsOf vs)).counters).getD 0 = (outcomes vs).countP q := by
  rw [valueOf_getD (Registry.nodup_ofEvents _), countIn_eventsOf hq]

end Counters

theorem countOf_success (r : Except (Fault α) (Estimate α)) :
    countOf (· = Metrics.estimations "ok") (measure r) = r.isOk.toNat := by
  cases r with
  | ok estimate =>
    rw [measure]
    cases estimate.corrected <;> rfl
  | error fault =>
    simp [countOf, measure, updates, Update.countIn, Metrics.estimations, fault.kind_ne_ok,
      Except.isOk, Except.toBool]

theorem countOf_failure (fault : Fault α) (r : Except (Fault α) (Estimate α)) :
    countOf (· = Metrics.estimations fault.kind) (measure r) =
      (failedWith fault.kind r).toNat := by
  cases r with
  | ok estimate =>
    cases hcorrected : estimate.corrected <;>
      simp [countOf, measure, updates, Update.countIn, Metrics.estimations, corrections,
        fault.kind_ne_ok.symm, hcorrected, failedWith]
  | error other =>
    by_cases hkind : other.kind = fault.kind <;>
      simp [countOf, measure, updates, Update.countIn, Metrics.estimations, failedWith, hkind]

theorem countOf_estimation (r : Except (Fault α) (Estimate α)) :
    countOf (·.name = "gyro_sync_estimations_total") (measure r) = 1 := by
  cases r with
  | ok estimate =>
    rw [measure]
    cases estimate.corrected <;> rfl
  | error fault => rfl

theorem countOf_corrections (r : Except (Fault α) (Estimate α)) :
    countOf (· = corrections) (measure r) =
      ((r.toOption.map (·.corrected)).getD false).toNat := by
  cases r with
  | ok estimate =>
    rw [measure]
    cases hcorrected : estimate.corrected <;> simp [Except.toOption, hcorrected] <;> rfl
  | error fault =>
    simp [countOf, measure, updates, Update.countIn, Metrics.estimations, corrections,
      Except.toOption]

theorem observedOf_delays (r : Except (Fault α) (Estimate α)) :
    observedOf delays (measure r) = r.toOption.toList.map (·.delay * ofNat 1000) := by
  cases r with
  | ok estimate =>
    rw [measure]
    cases estimate.corrected <;> rfl
  | error fault => rfl

theorem observedOf_sampleInterval (r : Except (Fault α) (Estimate α)) :
    observedOf sampleInterval (measure r) = [] := by
  cases r with
  | ok estimate =>
    rw [measure]
    cases estimate.corrected <;> rfl
  | error fault => rfl

/-- **Every call is accounted for.** Several estimators are called, and one registry takes what is
measured. Its counters of estimations hold the successes and the failures of each kind, as many as
there were calls for the delay. The delays and the corrected peaks are those of the estimates, and
the working intervals are those of the resamplings that succeeded, whether they were asked for or
came before an estimation, and whatever became of that estimation. -/
theorem registry_accounts {ι : Type} [DecidableEq ι] (es : ι → Estimator α)
    (cs : List (ι × Call α)) :
    let vs := visits es cs
    let registry := Registry.ofEvents (eventsOf vs)
    (valueOf (Metrics.estimations "ok") registry.counters).getD 0 = (outcomes vs).countP (·.isOk) ∧
      (∀ fault : Fault α, (valueOf (Metrics.estimations fault.kind) registry.counters).getD 0 =
        (outcomes vs).countP (failedWith fault.kind)) ∧
      countIn (·.name = "gyro_sync_estimations_total") registry.counters =
        cs.countP (· matches (_, .estimateDelay)) ∧
      (valueOf delays registry.histograms).getD [] = (found vs).map (·.delay * ofNat 1000) ∧
      (valueOf corrections registry.counters).getD 0 = (found vs).countP (·.corrected) ∧
      (valueOf sampleInterval registry.histograms).getD [] =
        (intervals vs).map (· * ofNat 1000) := by
  intro vs registry
  refine ⟨valueOf_eventsOf countOf_success vs, ?_, ?_, ?_, ?_, ?_⟩
  · exact fun fault => valueOf_eventsOf (countOf_failure fault) vs
  · rw [countIn_eventsOf (q := fun _ => true) countOf_estimation, List.countP_true,
      length_outcomes_visits]
  · rw [Registry.histogram_ofEvents, flatMap_eventsOf_outcomes fun _ => rfl]
    simp only [observedOf_delays, found, List.filterMap_eq_flatMap_toList, List.map_flatMap]
  · rw [found, List.countP_filterMap]
    exact valueOf_eventsOf countOf_corrections vs
  · rw [Registry.histogram_ofEvents, flatMap_eventsOf_intervals observedOf_sampleInterval]
    exact List.map_eq_flatMap.symm

end Estimator

end GyroDelay

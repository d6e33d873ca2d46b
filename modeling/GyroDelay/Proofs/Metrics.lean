import Mathlib.Algebra.GroupWithZero.Nat
import GyroDelay.Estimation.Run
import GyroDelay.Metrics.Registry

/-!
# What is measured

The counters of a registry hold exactly what its events count (`countIn_ofEvents`), and each
series has at most one counter, so the counter of a single series is such a count as well
(`valueOf_ofEvents`). The histogram of a series holds the values that the events have there, in
their order (`histogram_ofEvents`).

Of the events themselves, resampling and estimating leave a fixed trace: the interval if it
could be fixed, then the outcome of the estimation. No session ends inside of a run.
-/

namespace GyroDelay

namespace Metrics

/-! ## One counter -/

/-- The sum of the counters of a set of series. -/
def countIn (p : Series → Bool) (counters : List (Series × Nat)) : Nat :=
  ((counters.filter fun e => p e.1).map (·.2)).sum

@[simp] theorem countIn_nil (p : Series → Bool) : countIn p [] = 0 := rfl

@[simp] theorem countIn_cons (p : Series → Bool) (e : Series × Nat)
    (counters : List (Series × Nat)) :
    countIn p (e :: counters) = (if p e.1 then e.2 else 0) + countIn p counters := by
  unfold countIn
  rw [List.filter_cons]
  split <;> simp

theorem countIn_adjust (p : Series → Bool) (key : Series) (n : Nat)
    (counters : List (Series × Nat)) :
    countIn p (adjust key 0 (· + n) counters) = countIn p counters + if p key then n else 0 := by
  induction counters with
  | nil => simp [adjust]
  | cons e rest ih =>
    obtain ⟨k, m⟩ := e
    rw [adjust]
    split
    · rename_i hk
      subst hk
      simp only [countIn_cons]
      split <;> omega
    · simp only [countIn_cons, ih]
      omega

section Keys

variable {β : Type} (key : Series) (initial : β) (change : β → β)

theorem mem_keys_adjust {k : Series} {entries : List (Series × β)} :
    k ∈ (adjust key initial change entries).map Prod.fst ↔
      k = key ∨ k ∈ entries.map Prod.fst := by
  induction entries with
  | nil => simp [adjust]
  | cons e rest ih =>
    rw [adjust]
    split
    · rename_i hk
      simp [hk]
    · rw [List.map_cons, List.mem_cons, ih, List.map_cons, List.mem_cons]
      exact or_left_comm

theorem nodup_keys_adjust {entries : List (Series × β)} (h : (entries.map Prod.fst).Nodup) :
    ((adjust key initial change entries).map Prod.fst).Nodup := by
  induction entries with
  | nil => simp [adjust]
  | cons e rest ih =>
    rw [List.map_cons, List.nodup_cons] at h
    rw [adjust]
    split
    · exact List.nodup_cons.mpr h
    · rename_i hk
      rw [List.map_cons, List.nodup_cons, mem_keys_adjust]
      exact ⟨not_or.mpr ⟨hk, h.1⟩, ih h.2⟩

end Keys

theorem valueOf_cons {β : Type} (s : Series) (e : Series × β) (rest : List (Series × β)) :
    valueOf s (e :: rest) = if e.1 = s then some e.2 else valueOf s rest := by
  by_cases hs : e.1 = s <;> simp [valueOf, hs]

theorem valueOf_eq_none {β : Type} {s : Series} {entries : List (Series × β)}
    (h : s ∉ entries.map Prod.fst) : valueOf s entries = none := by
  induction entries with
  | nil => rfl
  | cons e rest ih =>
    rw [List.map_cons, List.mem_cons, not_or] at h
    rw [valueOf_cons, if_neg (Ne.symm h.1), ih h.2]

/-- A series with at most one counter has the value that this counter holds. -/
theorem valueOf_getD {counters : List (Series × Nat)} (h : (counters.map Prod.fst).Nodup)
    (s : Series) : (valueOf s counters).getD 0 = countIn (· = s) counters := by
  induction counters with
  | nil => rfl
  | cons e rest ih =>
    rw [List.map_cons, List.nodup_cons] at h
    rw [countIn_cons, ← ih h.2, valueOf_cons]
    by_cases hs : e.1 = s
    · simp [hs, valueOf_eq_none (hs ▸ h.1)]
    · simp [hs]

/-- A change of one series leaves the others as they are. -/
theorem valueOf_adjust {β : Type} (s key : Series) (initial : β) (change : β → β)
    (entries : List (Series × β)) :
    (valueOf s (adjust key initial change entries)).getD initial =
      if key = s then change ((valueOf s entries).getD initial)
      else (valueOf s entries).getD initial := by
  induction entries with
  | nil =>
    rw [adjust, valueOf_cons]
    split <;> rfl
  | cons e rest ih =>
    obtain ⟨k, v⟩ := e
    rw [adjust]
    by_cases hk : k = key
    · subst hk
      rw [if_pos rfl, valueOf_cons, valueOf_cons]
      split <;> rfl
    · rw [if_neg hk, valueOf_cons, valueOf_cons]
      dsimp only
      by_cases hs : k = s
      · subst hs
        rw [if_pos rfl, if_pos rfl, if_neg (Ne.symm hk)]
      · rw [if_neg hs, if_neg hs, ih]

/-! ## All counters of a registry -/

variable {α : Type}

/-- What a change adds to the counters of a set of series. -/
def Update.countIn (p : Series → Bool) : Update α → Nat
  | .count series n => if p series then n else 0
  | .set _ _ => 0
  | .observe _ _ => 0

/-- What an event adds to the counters of a set of series. -/
def countOf [Scalar α] (p : Series → Bool) (e : Event α) : Nat :=
  ((updates e).map (Update.countIn p)).sum

namespace Registry

theorem countIn_apply (p : Series → Bool) (r : Registry α) (u : Update α) :
    countIn p (r.apply u).counters = countIn p r.counters + u.countIn p := by
  cases u with
  | count series n => exact countIn_adjust p series n r.counters
  | set _ _ => rfl
  | observe _ _ => rfl

theorem countIn_foldl (p : Series → Bool) (us : List (Update α)) (r : Registry α) :
    countIn p (us.foldl apply r).counters =
      countIn p r.counters + (us.map (Update.countIn p)).sum := by
  induction us generalizing r with
  | nil => rfl
  | cons u us ih =>
    rw [List.foldl_cons, ih, countIn_apply, List.map_cons, List.sum_cons, Nat.add_assoc]

theorem nodup_foldl (us : List (Update α)) {r : Registry α}
    (h : (r.counters.map Prod.fst).Nodup) :
    ((us.foldl apply r).counters.map Prod.fst).Nodup := by
  induction us generalizing r with
  | nil => exact h
  | cons u us ih =>
    refine ih ?_
    cases u with
    | count series n => exact nodup_keys_adjust series 0 (· + n) h
    | set _ _ => exact h
    | observe _ _ => exact h

variable [Scalar α]

/-- **The counters of a set of series hold what the events count.** -/
theorem countIn_ofEvents (p : Series → Bool) (events : List (Event α)) :
    countIn p (ofEvents events).counters = (events.map (countOf p)).sum := by
  rw [ofEvents, countIn_foldl]
  simp only [empty, countIn_nil, Nat.zero_add]
  induction events with
  | nil => rfl
  | cons e events ih => simp [countOf, ih]

theorem nodup_ofEvents (events : List (Event α)) :
    ((ofEvents events).counters.map Prod.fst).Nodup :=
  nodup_foldl (events.flatMap updates) List.nodup_nil

/-- **The counter of a series holds what the events count there.** -/
theorem valueOf_ofEvents (s : Series) (events : List (Event α)) :
    (valueOf s (ofEvents events).counters).getD 0 = (events.map (countOf (· = s))).sum := by
  rw [valueOf_getD (nodup_ofEvents events), countIn_ofEvents]

end Registry

/-! ## Histograms -/

/-- The values that a change gives to the histogram of a series. -/
def Update.observed (s : Series) : Update α → List α
  | .observe series x => if series = s then [x] else []
  | .count _ _ => []
  | .set _ _ => []

/-- The values that an event gives to the histogram of a series. -/
def observedOf [Scalar α] (s : Series) (e : Event α) : List α :=
  (updates e).flatMap (Update.observed s)

namespace Registry

theorem histogram_apply (s : Series) (r : Registry α) (u : Update α) :
    (valueOf s (r.apply u).histograms).getD [] =
      (valueOf s r.histograms).getD [] ++ u.observed s := by
  cases u with
  | count _ _ => exact (List.append_nil _).symm
  | set _ _ => exact (List.append_nil _).symm
  | observe series x =>
    rw [apply, valueOf_adjust, Update.observed]
    split
    · rfl
    · exact (List.append_nil _).symm

theorem histogram_foldl (s : Series) (us : List (Update α)) (r : Registry α) :
    (valueOf s (us.foldl apply r).histograms).getD [] =
      (valueOf s r.histograms).getD [] ++ us.flatMap (Update.observed s) := by
  induction us generalizing r with
  | nil => exact (List.append_nil _).symm
  | cons u us ih =>
    rw [List.foldl_cons, ih, histogram_apply, List.flatMap_cons, List.append_assoc]

/-- **The histogram of a series holds what the events have there.** -/
theorem histogram_ofEvents [Scalar α] (s : Series) (events : List (Event α)) :
    (valueOf s (ofEvents events).histograms).getD [] = events.flatMap (observedOf s) := by
  rw [ofEvents, histogram_foldl, List.flatMap_assoc]
  rfl

end Registry

end Metrics

/-! ## The sessions among the events -/

variable {α : Type}

/-- The status of the session that ends with an event. -/
def Event.status? : Event α → Option String
  | .session status _ => some status
  | .resampled _ | .estimated _ _ | .estimationFailed _ | .bytesReceived _ | .uploaded _ _ _
  | .clockOffset _ => none

/-- The statuses of the sessions that end, in their order. -/
def statuses (events : List (Event α)) : List String := events.filterMap Event.status?

@[simp] theorem statuses_nil : statuses ([] : List (Event α)) = [] := rfl

@[simp] theorem statuses_append (a b : List (Event α)) :
    statuses (a ++ b) = statuses a ++ statuses b := List.filterMap_append

@[simp] theorem statuses_cons (e : Event α) (events : List (Event α)) :
    statuses (e :: events) = e.status?.toList ++ statuses events := by
  cases h : e.status? <;> simp [statuses, h]

section Counts

open Metrics

variable [Scalar α]

theorem sum_countOf_sessions (events : List (Event α)) :
    (events.map (countOf (·.name = "gyro_sync_sessions_total"))).sum =
      (statuses events).length := by
  induction events with
  | nil => rfl
  | cons e events ih =>
    rw [List.map_cons, List.sum_cons, ih, statuses_cons, List.length_append]
    congr 1
    cases e with
    | estimated delay corrected => cases corrected <;> rfl
    | _ => rfl

theorem sum_countOf_status (status : String) (events : List (Event α)) :
    (events.map (countOf (· = sessions status))).sum = (statuses events).count status := by
  induction events with
  | nil => rfl
  | cons e events ih =>
    rw [List.map_cons, List.sum_cons, ih, statuses_cons, List.count_append]
    congr 1
    cases e with
    | session s milliseconds =>
      by_cases hs : s = status
        <;> simp [countOf, updates, Update.countIn, Event.status?, sessions, hs]
    | estimated delay corrected =>
      cases corrected <;> simp [countOf, updates, Update.countIn, Event.status?, sessions,
        estimations, corrections]
    | _ => simp [countOf, updates, Update.countIn, Event.status?, sessions, estimations,
        bytesReceived]

end Counts

/-! ## The events of a run -/

section Runs

variable [Scalar α]

namespace Estimator

theorem resample_events (e : Estimator α) (accuracy : α) :
    (e.resample accuracy).events = match (e.resample accuracy).result with
      | .ok interval => [.resampled interval]
      | .error _ => [] := by
  unfold resample
  cases e.workingInterval accuracy with
  | error fault => rfl
  | ok interval =>
    dsimp only
    split
    · rfl
    · cases e.first.resample interval e.settings.gridLimit.toNat with
      | error fault => rfl
      | ok first =>
        dsimp only
        cases e.second.resample interval e.settings.gridLimit.toNat with
        | error fault => rfl
        | ok second => rfl

theorem estimateDelay_events (e : Estimator α) :
    e.estimateDelay.events =
      (if e.interval = none then (e.resample e.settings.accuracy).events else []) ++
        [measure e.estimateDelay.result] := by
  unfold estimateDelay
  cases hinterval : e.interval with
  | some interval => rfl
  | none =>
    dsimp only
    cases hresult : (e.resample e.settings.accuracy).result with
    | error fault => simp [measure]
    | ok interval => simp

theorem statuses_resample (e : Estimator α) (accuracy : α) :
    statuses (e.resample accuracy).events = [] := by
  rw [resample_events]
  cases (e.resample accuracy).result with
  | error fault => rfl
  | ok interval => rfl

theorem statuses_estimateDelay (e : Estimator α) : statuses e.estimateDelay.events = [] := by
  have hprepared : statuses
      (if e.interval = none then (e.resample e.settings.accuracy).events else []) = [] := by
    split
    · exact e.statuses_resample _
    · rfl
  rw [estimateDelay_events, statuses_append, hprepared]
  cases e.estimateDelay.result with
  | error fault => rfl
  | ok estimate => rfl

end Estimator

theorem Run.statuses_ofTracks (first second : Track α) (settings : Settings α) :
    statuses (Run.ofTracks first second settings).events = [] := by
  unfold Run.ofTracks
  dsimp only
  split
  · exact Estimator.statuses_resample _ _
  · rw [statuses_append, Estimator.statuses_resample, Estimator.statuses_estimateDelay]
    rfl

/-- No session ends inside of a run. -/
theorem Run.statuses_ofRecordings (first second : Recording α) (settings : Settings α) :
    statuses (Run.ofRecordings first second settings).events = [] := by
  unfold Run.ofRecordings
  split
  · rfl
  · rfl
  · exact Run.statuses_ofTracks _ _ settings

end Runs

end GyroDelay

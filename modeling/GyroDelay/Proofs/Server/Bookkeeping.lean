import GyroDelay.Proofs.Server.Session

/-!
# The books of a server

A run is its sessions one after the other, each with the outcome that its own uploads and
connections give it (`runFrom_accounts`), and a limit only cuts the list of sessions off
(`runFrom_eq_of_limit`). So the books of a run balance, however its sessions go (`books_of_run`):
every session is either answered, with eight bytes, or aborted; the estimations are the
sessions with both uploads, which may be aborted all the same; and the metrics count every
session once, under the status with which it ended.
-/

namespace GyroDelay.Server

section Accounts

variable {α : Type} [Scalar α] [NumberText α]

/-- What a run of some sessions that finds totals `t` leaves behind. -/
structure Accounts (setup : Setup α) (t : Totals α) (exchanges : List (Exchange α))
    (log : Log α) : Prop where
  answers : log.answers = exchanges.map (·.answer? setup)
  statuses : statuses log.events = exchanges.map (·.status setup)
  sessions : log.totals.sessions = t.sessions + exchanges.length
  aborted : log.totals.aborted = t.aborted + exchanges.countP fun x => (x.answer? setup).isNone
  bytesReceived : log.totals.bytesReceived =
    t.bytesReceived + byteCount (exchanges.flatMap (·.received setup))
  total : log.totals.tally.total =
    t.tally.total + exchanges.countP fun x => (x.uploads? setup).isSome

theorem runFrom_accounts (setup : Setup α) (t : Totals α) (exchanges : List (Exchange α)) :
    Accounts setup t exchanges (runFrom setup none t exchanges) := by
  induction exchanges generalizing t with
  | nil => exact ⟨rfl, rfl, rfl, rfl, rfl, rfl⟩
  | cons x rest ih =>
    obtain ⟨t', events, hadds, hevents, hsession⟩ := session_spec setup x t
    have hrest := ih t'
    have hrun : runFrom setup none t (x :: rest) =
        ⟨x.answer? setup :: (runFrom setup none t' rest).answers,
          (runFrom setup none t' rest).totals,
          events ++ (runFrom setup none t' rest).events⟩ := by
      simp [runFrom, hsession]
    rw [hrun]
    constructor
    · rw [hrest.answers, List.map_cons]
    · rw [statuses_append, hevents, hrest.statuses, List.map_cons, List.singleton_append]
    · rw [hrest.sessions, hadds.sessions, List.length_cons]
      omega
    · rw [hrest.aborted, hadds.aborted, List.countP_cons]
      omega
    · rw [hrest.bytesReceived, hadds.bytesReceived, List.flatMap_cons, byteCount_append]
      omega
    · rw [hrest.total, hadds.total, List.countP_cons]
      omega

/-- A limit cuts the list of sessions off. -/
theorem runFrom_eq_of_limit (setup : Setup α) (k : Nat) (t : Totals α)
    (exchanges : List (Exchange α)) :
    runFrom setup (some k) t exchanges =
      runFrom setup none t (exchanges.take (k - t.sessions)) := by
  induction exchanges generalizing t with
  | nil => simp [runFrom]
  | cons x rest ih =>
    by_cases hk : k ≤ t.sessions
    · simp [runFrom, hk, Nat.sub_eq_zero_of_le hk]
    · obtain ⟨t', events, hadds, -, hsession⟩ := session_spec setup x t
      have hleft : k - t.sessions = (k - t'.sessions) + 1 := by
        rw [hadds.sessions]
        omega
      rw [hleft, List.take_succ_cons]
      simp [runFrom, hk, hsession, ih]

/-- A run on a fresh server accounts for the sessions up to its limit. -/
theorem run_accounts (setup : Setup α) (k : Nat) (exchanges : List (Exchange α)) :
    Accounts setup Totals.empty (exchanges.take k) (run setup (some k) exchanges) := by
  rw [run, runFrom_eq_of_limit]
  exact runFrom_accounts setup Totals.empty (exchanges.take k)

/-- Only a session with an estimation can be answered. -/
theorem length_sub_aborted_le (setup : Setup α) (exchanges : List (Exchange α)) :
    exchanges.length - exchanges.countP (fun x => (x.answer? setup).isNone) ≤
      exchanges.countP fun x => (x.uploads? setup).isSome := by
  have hsplit := List.length_eq_countP_add_countP (fun x : Exchange α => (x.answer? setup).isNone)
    (l := exchanges)
  have hmono : exchanges.countP (fun x => ¬(x.answer? setup).isNone = true) ≤
      exchanges.countP fun x => (x.uploads? setup).isSome := by
    refine List.countP_mono_left fun x _ h => ?_
    rw [decide_eq_true_eq, Exchange.isNone_answer?] at h
    cases hu : x.uploads? setup with
    | none => simp [hu] at h
    | some uploads => rfl
  omega

theorem count_aborted (setup : Setup α) (exchanges : List (Exchange α)) :
    (exchanges.map (·.status setup)).count "aborted" =
      exchanges.countP fun x => (x.answer? setup).isNone := by
  rw [List.count_eq_countP, List.countP_map]
  refine List.countP_congr fun x _ => ?_
  simp [Exchange.status_eq_aborted]

end Accounts

/-! ## The balance -/

open Metrics

/-- The books of a server after some sessions. -/
structure Books (setup : Setup Float) (exchanges : List (Exchange Float)) (log : Log Float) :
    Prop where
  sessions : log.totals.sessions = exchanges.length
  answers : log.answers.length = exchanges.length
  /-- A session with both uploads whose answer is fetched sends it, in eight bytes. -/
  sent : ∀ (i : Nat) (x : Exchange Float), exchanges[i]? = some x →
    (x.uploads? setup).isSome → x.answered = true →
    ∃ a, log.answers[i]? = some (some a) ∧ a.bytes.length = 8
  /-- Every other session is aborted. -/
  unsent : ∀ (i : Nat) (x : Exchange Float), exchanges[i]? = some x →
    x.uploads? setup = none ∨ x.answered = false → log.answers[i]? = some none
  aborted : log.totals.aborted =
    exchanges.countP fun x => (x.uploads? setup).isNone || !x.answered
  /-- The estimations are the sessions with both uploads, answered or not. -/
  estimations : log.totals.tally.total = exchanges.countP fun x => (x.uploads? setup).isSome
  le_estimations : exchanges.length - log.totals.aborted ≤ log.totals.tally.total
  estimations_le : log.totals.tally.total ≤ exchanges.length
  bytesReceived : log.totals.bytesReceived =
    ((exchanges.flatMap (·.received setup)).map List.length).sum
  /-- The metrics count every session under one status. -/
  counted : countIn (·.name = "gyro_sync_sessions_total")
    (Registry.ofEvents log.events).counters = exchanges.length
  countedAborted : (valueOf (Metrics.sessions "aborted")
    (Registry.ofEvents log.events).counters).getD 0 = log.totals.aborted

theorem Accounts.books {setup : Setup Float} {exchanges : List (Exchange Float)}
    {log : Log Float} (h : Accounts setup Totals.empty exchanges log) :
    Books setup exchanges log := by
  have hsessions : log.totals.sessions = exchanges.length := by simp [h.sessions, Totals.empty]
  have haborted : log.totals.aborted =
      exchanges.countP fun x => (x.answer? setup).isNone := by simp [h.aborted, Totals.empty]
  have htotal : log.totals.tally.total =
      exchanges.countP fun x => (x.uploads? setup).isSome := by
    rw [h.total]
    simp [Totals.empty, Tally.empty, Tally.total]
  constructor
  case sessions => exact hsessions
  case answers => rw [h.answers, List.length_map]
  case sent =>
    intro i x hx huploads hanswered
    cases hanswer : x.answer? setup with
    | none =>
      have hnone := Exchange.answer?_eq_none.mp hanswer
      simp [Option.isSome_iff_ne_none.mp huploads, hanswered] at hnone
    | some a =>
      refine ⟨a, ?_, a.length_bytes⟩
      rw [h.answers, List.getElem?_map, hx, Option.map_some, hanswer]
  case unsent =>
    intro i x hx hnone
    rw [h.answers, List.getElem?_map, hx, Option.map_some, Exchange.answer?_eq_none.mpr hnone]
  case aborted =>
    rw [haborted]
    simp only [Exchange.isNone_answer?]
  case estimations => exact htotal
  case le_estimations =>
    rw [haborted, htotal]
    exact length_sub_aborted_le setup exchanges
  case estimations_le =>
    rw [htotal]
    exact List.countP_le_length
  case bytesReceived => rw [h.bytesReceived, byteCount, Totals.empty, Nat.zero_add]
  case counted =>
    rw [Registry.countIn_ofEvents, sum_countOf_sessions, h.statuses, List.length_map]
  case countedAborted =>
    rw [Registry.valueOf_ofEvents, sum_countOf_status, h.statuses, count_aborted, haborted]

/-- **Through any run of `k` sessions the books balance.** -/
theorem books_of_run (setup : Setup Float) (k : Nat) (exchanges : List (Exchange Float))
    (hk : k ≤ exchanges.length) :
    (run setup (some k) exchanges).totals.sessions = k ∧
      Books setup (exchanges.take k) (run setup (some k) exchanges) := by
  have hbooks := (run_accounts setup k exchanges).books
  refine ⟨?_, hbooks⟩
  rw [hbooks.sessions, List.length_take, Nat.min_eq_left hk]

/-- A server that saves uploads. -/
def savingSetup : Setup Float :=
  { settings := Settings.default, unit := .nanoseconds, bufferSize := 4, saves := true }

/-- The upload of the leader cannot be saved. -/
def unsavedSession : Exchange Float :=
  { client := .complete [[0x30]], leader := .complete [[0x31, 0x32], [0x33]], clientSaved := true
    leaderSaved := false, answered := true, milliseconds := 1 }

/-- The upload of the client is no text. -/
def unreadableSession : Exchange Float :=
  { client := .complete [[0xff]], leader := .complete [[0x23]], clientSaved := true
    leaderSaved := true, answered := true, milliseconds := 1 }

/-- The connection of the client breaks. -/
def brokenSession : Exchange Float :=
  { client := .broken, leader := .broken, clientSaved := true, leaderSaved := true
    answered := true, milliseconds := 1 }

def troubledSessions : List (Exchange Float) := [unsavedSession, unreadableSession, brokenSession]

/-- The first two of these sessions are one estimation, one answer and six bytes. -/
theorem books_troubledSessions :
    2 ≤ troubledSessions.length ∧
      (run savingSetup (some 2) troubledSessions).totals.sessions = 2 ∧
      (run savingSetup (some 2) troubledSessions).totals.aborted = 1 ∧
      (run savingSetup (some 2) troubledSessions).totals.tally.total = 1 ∧
      (run savingSetup (some 2) troubledSessions).totals.bytesReceived = 6 := by
  have hlength : 2 ≤ troubledSessions.length := by decide
  obtain ⟨hsessions, hbooks⟩ := books_of_run savingSetup 2 troubledSessions hlength
  refine ⟨hlength, hsessions, ?_, ?_, ?_⟩
  · rw [hbooks.aborted]
    rfl
  · rw [hbooks.estimations]
    rfl
  · rw [hbooks.bytesReceived]
    rfl

end GyroDelay.Server

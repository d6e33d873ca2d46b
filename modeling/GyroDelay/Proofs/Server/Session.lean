import GyroDelay.Proofs.Metrics
import GyroDelay.Server

/-!
# One session

What a session comes to follows from its own two uploads and connections alone: whether the
uploads are kept, what the estimation makes of them, and whether the answer is fetched. The
totals that it finds are only added to (`converse_spec`, `session_spec`).

A session has several exits. The bytes of an upload count as soon as it is complete, also if
it cannot be saved, and an estimation counts even if nobody fetches its answer; the session
itself counts as aborted unless its answer is sent.
-/

namespace GyroDelay

/-- No fault has the kind under which aborted sessions are counted. -/
theorem Fault.kind_ne_aborted {α : Type} (fault : Fault α) : fault.kind ≠ "aborted" := by
  cases fault <;> simp [Fault.kind]

namespace Server

variable {α : Type}

/-! ## What a session has to offer -/

/-- The bytes of an upload that is received completely. -/
def Delivery.bytes? (bufferSize : Nat) : Delivery → Option (List UInt8)
  | .complete reads =>
    if bufferSize = 0 then none else some (reads.takeWhile (! ·.isEmpty)).flatten
  | .broken => none

/-- The bytes of an upload that the session goes on with: where uploads are saved, it has to
be saved. -/
def Delivery.kept? (delivery : Delivery) (setup : Setup α) (canSave : Bool) :
    Option (List UInt8) :=
  if setup.saves && !canSave then none else delivery.bytes? setup.bufferSize

namespace Exchange

/-- Both uploads, first that of the client. -/
def uploads? (x : Exchange α) (setup : Setup α) : Option (List UInt8 × List UInt8) :=
  (x.client.kept? setup x.clientSaved).bind fun client =>
    (x.leader.kept? setup x.leaderSaved).map (client, ·)

/-- The uploads that are received completely. The leader has its turn once the upload of the
client is kept. -/
def received (x : Exchange α) (setup : Setup α) : List (List UInt8) :=
  (x.client.bytes? setup.bufferSize).toList ++
    if (x.client.kept? setup x.clientSaved).isSome then
      (x.leader.bytes? setup.bufferSize).toList
    else []

variable [Scalar α] [NumberText α]

/-- What the estimation makes of both uploads. -/
def result? (x : Exchange α) (setup : Setup α) : Option (Except (Fault α) (Report α)) :=
  (x.uploads? setup).map fun (client, leader) => (estimate setup client leader).result

/-- The answer that is sent. -/
def answer? (x : Exchange α) (setup : Setup α) : Option (Answer α) :=
  if x.answered then (x.result? setup).map answer else none

/-- The status of the session. -/
def status (x : Exchange α) (setup : Setup α) : String :=
  if x.answered then (x.result? setup).elim "aborted" statusOf else "aborted"

theorem isNone_answer? (x : Exchange α) (setup : Setup α) :
    (x.answer? setup).isNone = ((x.uploads? setup).isNone || !x.answered) := by
  unfold answer? result?
  cases x.answered <;> simp

theorem answer?_eq_none {x : Exchange α} {setup : Setup α} :
    x.answer? setup = none ↔ x.uploads? setup = none ∨ x.answered = false := by
  rw [← Option.isNone_iff_eq_none, isNone_answer?, Bool.or_eq_true, Option.isNone_iff_eq_none,
    Bool.not_eq_true']

/-- A session is counted as aborted exactly if no answer is sent. -/
theorem status_eq_aborted {x : Exchange α} {setup : Setup α} :
    x.status setup = "aborted" ↔ x.answer? setup = none := by
  unfold status answer?
  cases x.answered with
  | false => simp
  | true =>
    cases x.result? setup with
    | none => simp
    | some result =>
      cases result with
      | ok report => simp [statusOf]
      | error fault => simp [statusOf, fault.kind_ne_aborted]

end Exchange

/-! ## What a session does -/

/-- The number of bytes of some uploads. -/
def byteCount (uploads : List (List UInt8)) : Nat := (uploads.map List.length).sum

@[simp] theorem byteCount_append (a b : List (List UInt8)) :
    byteCount (a ++ b) = byteCount a + byteCount b := by simp [byteCount]

/-- A complete upload is counted, and kept unless it had to be saved and could not be. -/
theorem takeUpload_spec (setup : Setup α) (place : Nat) (delivery : Delivery) (canSave : Bool)
    (t : Totals α) :
    ∃ files events, statuses events = [] ∧ takeUpload setup place delivery canSave t =
      (delivery.kept? setup canSave,
        { t with
          bytesReceived :=
            t.bytesReceived + byteCount (delivery.bytes? setup.bufferSize).toList
          saved := files },
        events) := by
  unfold takeUpload Delivery.kept?
  cases delivery with
  | broken => exact ⟨t.saved, [], rfl, by simp [Delivery.bytes?, byteCount]⟩
  | complete reads =>
    simp only [Upload.receive, Delivery.bytes?]
    by_cases hsize : setup.bufferSize = 0
    · simp only [hsize, if_true]
      exact ⟨t.saved, [], rfl, by simp [byteCount]⟩
    · simp only [hsize, if_false]
      generalize (reads.takeWhile (! ·.isEmpty)).flatten = bytes
      cases hsaves : setup.saves with
      | false => exact ⟨t.saved, [.bytesReceived bytes.length], rfl, rfl⟩
      | true =>
        cases canSave with
        | false => exact ⟨t.saved, [.bytesReceived bytes.length], rfl, rfl⟩
        | true =>
          exact ⟨save place bytes t.saved, [.bytesReceived bytes.length], rfl, rfl⟩

theorem total_record [Scalar α] (t : Tally α) (result : Except (Fault α) (Report α)) :
    (record t result).total = t.total + 1 := by
  cases result with
  | ok report =>
    simp only [record, Tally.success, Tally.total]
    omega
  | error fault =>
    simp only [record, Tally.failure, Tally.total]
    omega

variable [Scalar α] [NumberText α]

theorem statuses_estimate (setup : Setup α) (client leader : List UInt8) :
    statuses (estimate setup client leader).events = [] := by
  unfold estimate
  split
  · rfl
  · dsimp only
    split
    · rfl
    · rw [statuses_append, Run.statuses_ofRecordings]
      rfl

/-- What a session leaves of the totals that it finds, apart from the saved files. -/
def Exchange.addTo (x : Exchange α) (setup : Setup α) (t : Totals α)
    (files : List (Nat × List UInt8)) : Totals α :=
  { sessions := t.sessions
    aborted := t.aborted + if (x.answer? setup).isNone then 1 else 0
    bytesReceived := t.bytesReceived + byteCount (x.received setup)
    tally := (x.result? setup).elim t.tally (record t.tally)
    saved := files }

/-- The outcome of a session that finds totals `t`. -/
def Exchange.outcome (x : Exchange α) (setup : Setup α) (t : Totals α)
    (files : List (Nat × List UInt8)) (events : List (Event α)) : Outcome α :=
  { status := x.status setup, sent := x.answer? setup, totals := x.addTo setup t files
    events := events }

/-- Without both uploads, a session is aborted before the estimation. -/
theorem abort_of_uploads?_eq_none {x : Exchange α} {setup : Setup α}
    (h : x.uploads? setup = none) (t : Totals α) (files : List (Nat × List UInt8))
    (events : List (Event α)) :
    Outcome.abort
        { t with
          bytesReceived := t.bytesReceived + byteCount (x.received setup), saved := files }
        events =
      x.outcome setup t files events := by
  have hanswer : x.answer? setup = none := Exchange.answer?_eq_none.mpr (.inl h)
  rw [Exchange.outcome, Exchange.status_eq_aborted.mpr hanswer, hanswer]
  simp [Outcome.abort, Exchange.addTo, Exchange.result?, h, hanswer]

/-- With both uploads, the estimation counts, and the answer decides over the session. -/
theorem close_of_uploads? {x : Exchange α} {setup : Setup α} {client leader : List UInt8}
    (h : x.uploads? setup = some (client, leader)) (t : Totals α)
    (files : List (Nat × List UInt8)) (events : List (Event α)) :
    (let result := (estimate setup client leader).result
      let totals : Totals α :=
        { t with
          bytesReceived := t.bytesReceived + byteCount (x.received setup)
          tally := record t.tally result
          saved := files }
      if x.answered then
        { status := statusOf result, sent := some (answer result), totals := totals
          events := events }
      else Outcome.abort totals events) =
      x.outcome setup t files events := by
  have hresult : x.result? setup = some (estimate setup client leader).result := by
    simp [Exchange.result?, h]
  unfold Exchange.outcome
  cases hanswered : x.answered <;>
    simp [hanswered, Outcome.abort, Exchange.status, Exchange.answer?, Exchange.addTo, hresult]

/-- **A session comes to what its own uploads and connections say, and adds that to the
totals.** -/
theorem converse_spec (setup : Setup α) (x : Exchange α) (t : Totals α) :
    ∃ files events, statuses events = [] ∧
      converse setup x t = x.outcome setup t files events := by
  obtain ⟨files₀, events₀, hevents₀, hclient⟩ :=
    takeUpload_spec setup 0 x.client x.clientSaved t
  unfold converse
  rw [hclient]
  cases hkept₀ : x.client.kept? setup x.clientSaved with
  | none =>
    have hreceived : x.received setup = (x.client.bytes? setup.bufferSize).toList := by
      simp [Exchange.received, hkept₀]
    refine ⟨files₀, events₀, hevents₀, ?_⟩
    rw [← abort_of_uploads?_eq_none (by simp [Exchange.uploads?, hkept₀]), hreceived]
  | some client =>
    have hreceived : x.received setup =
        (x.client.bytes? setup.bufferSize).toList ++ (x.leader.bytes? setup.bufferSize).toList := by
      simp [Exchange.received, hkept₀]
    obtain ⟨files₁, events₁, hevents₁, hleader⟩ :=
      takeUpload_spec setup 1 x.leader x.leaderSaved
        { t with
          bytesReceived :=
            t.bytesReceived + byteCount (x.client.bytes? setup.bufferSize).toList
          saved := files₀ }
    dsimp only
    rw [hleader]
    cases hkept₁ : x.leader.kept? setup x.leaderSaved with
    | none =>
      refine ⟨files₁, events₀ ++ events₁, by simp [hevents₀, hevents₁], ?_⟩
      rw [← abort_of_uploads?_eq_none (by simp [Exchange.uploads?, hkept₀, hkept₁]), hreceived,
        byteCount_append, Nat.add_assoc]
    | some leader =>
      have huploads : x.uploads? setup = some (client, leader) := by
        simp [Exchange.uploads?, hkept₀, hkept₁]
      have hclose := close_of_uploads? huploads t files₁
      simp only [hreceived, byteCount_append, ← Nat.add_assoc] at hclose
      refine ⟨files₁, _, ?_, hclose _⟩
      simp only [statuses_append, hevents₀, hevents₁, statuses_estimate, List.nil_append]
      split <;> rfl

/-- What a session adds to the totals. -/
structure Exchange.Adds (x : Exchange α) (setup : Setup α) (t t' : Totals α) : Prop where
  sessions : t'.sessions = t.sessions + 1
  aborted : t'.aborted = t.aborted + if (x.answer? setup).isNone then 1 else 0
  bytesReceived : t'.bytesReceived = t.bytesReceived + byteCount (x.received setup)
  tally : t'.tally = (x.result? setup).elim t.tally (record t.tally)

/-- An estimation is counted once there are both uploads. -/
theorem Exchange.Adds.total {x : Exchange α} {setup : Setup α} {t t' : Totals α}
    (h : x.Adds setup t t') :
    t'.tally.total = t.tally.total + if (x.uploads? setup).isSome then 1 else 0 := by
  rw [h.tally, Exchange.result?]
  cases x.uploads? setup with
  | none => rfl
  | some uploads => exact total_record _ _

/-- **A session with its book-keeping ends with one status and adds what is its own to the
totals.** -/
theorem session_spec (setup : Setup α) (x : Exchange α) (t : Totals α) :
    ∃ t' events, x.Adds setup t t' ∧ statuses events = [x.status setup] ∧
      session setup x t = (x.answer? setup, t', events) := by
  obtain ⟨files, events, hevents, hconverse⟩ := converse_spec setup x t
  refine ⟨{ x.addTo setup t files with sessions := t.sessions + 1 },
    events ++ [.session (x.status setup) x.milliseconds], ⟨rfl, rfl, rfl, rfl⟩, ?_, ?_⟩
  · rw [statuses_append, hevents]
    rfl
  · unfold session
    rw [hconverse]
    rfl

end Server

end GyroDelay

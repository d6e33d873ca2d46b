import GyroDelay.Server

/-!
# The queue of connections

All connections come through one queue, and nothing tells the server whose they are. A session
takes them from the head of the queue as it needs them: one for each upload, and one over which
its answer is fetched. With an upload that breaks or cannot be saved the session is over, and it
takes no more: what its devices still send stays in the queue, and the next session begins with
it.
-/

namespace GyroDelay.Server

/-- How a connection behaves, whatever a session takes it for. One that cannot be accepted
behaves like one that breaks. -/
structure Connection (α : Type) where
  /-- What is uploaded over it. -/
  upload : Delivery
  /-- Whether this upload can be saved. -/
  saved : Bool
  /-- Whether an answer is fetched over it and sent completely. -/
  answered : Bool
  /-- How long the session has taken once it is done with the connection, in milliseconds. -/
  milliseconds : α

/-- What stands for the connections that a session does not take after it is over. -/
def Connection.absent {α : Type} (last : Connection α) : Connection α :=
  { upload := .broken, saved := false, answered := false, milliseconds := last.milliseconds }

/-- How a session goes with its three connections. -/
def Exchange.over {α : Type} (client leader reply : Connection α) : Exchange α :=
  { client := client.upload, leader := leader.upload, clientSaved := client.saved
    leaderSaved := leader.saved, answered := reply.answered
    milliseconds := reply.milliseconds }

variable {α : Type}

/-- How a session goes with the connections that it takes from the queue, and what it leaves
there; `none` while it waits for a connection. -/
def take? (setup : Setup α) (totals : Totals α) :
    List (Connection α) → Option (Exchange α × List (Connection α))
  | [] => none
  | client :: queue =>
    match takeUpload setup 0 client.upload client.saved totals with
    | (none, _, _) => some (.over client client.absent client.absent, queue)
    | (some _, totals, _) =>
      match queue with
      | [] => none
      | leader :: queue =>
        match takeUpload setup 1 leader.upload leader.saved totals with
        | (none, _, _) => some (.over client leader leader.absent, queue)
        | (some _, _, _) =>
          match queue with
          | [] => none
          | reply :: queue => some (.over client leader reply, queue)

theorem length_of_take? {setup : Setup α} {totals : Totals α} {queue rest : List (Connection α)}
    {exchange : Exchange α} (h : take? setup totals queue = some (exchange, rest)) :
    rest.length < queue.length := by
  unfold take? at h
  split at h
  · cases h
  · rw [List.length_cons]
    split at h
    · cases h
      exact Nat.lt_succ_self _
    · split at h
      · cases h
      · rw [List.length_cons]
        split at h
        · cases h
          omega
        · split at h
          · cases h
          · cases h
            rw [List.length_cons]
            omega

variable [Scalar α] [NumberText α]

/-- Serves a queue of connections, beginning with the given totals, until `limit` sessions have
ended or a session waits for a connection. -/
def serveFrom (setup : Setup α) (limit : Option Nat) (totals : Totals α)
    (queue : List (Connection α)) : Log α :=
  if limit.any (· ≤ totals.sessions) then ⟨[], totals, []⟩
  else
    match _ : take? setup totals queue with
    | none => ⟨[], totals, []⟩
    | some (exchange, rest) =>
      let (sent, totals, events) := session setup exchange totals
      let log := serveFrom setup limit totals rest
      ⟨sent :: log.answers, log.totals, events ++ log.events⟩
termination_by queue.length
decreasing_by exact length_of_take? ‹_›

/-- Serves a queue of connections on a fresh server. -/
def serve (setup : Setup α) (limit : Option Nat) (queue : List (Connection α)) : Log α :=
  serveFrom setup limit Totals.empty queue

end GyroDelay.Server

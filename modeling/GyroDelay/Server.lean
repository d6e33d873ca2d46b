import GyroDelay.Config.Basic
import GyroDelay.Estimation.Run
import GyroDelay.Recording.Upload
import GyroDelay.Statistics.Tally

/-!
# The sync server

A session takes two uploads, first that of the client and then that of the leader, and
answers with the offset of their clocks in nanoseconds. If the estimation fails, the answer
is a value that is not a number. If the exchange itself breaks, the session is aborted
without an answer, and the server goes on with the next one.

Sessions are modelled with the behaviour of their connections as input, so a run of the
server is a function of the list of its sessions. How sessions come by their connections is told
by the queue that these wait in.
-/

namespace GyroDelay.Server

/-- What the server does in its sessions. -/
structure Setup (α : Type) where
  /-- How delays are estimated. -/
  settings : Settings α
  /-- The unit of uploaded timestamps. -/
  unit : TimeUnit
  /-- The size of the read buffer. -/
  bufferSize : Nat
  /-- Whether uploads are saved. -/
  saves : Bool

/-- What a server with a configuration does. -/
def Setup.ofConfig (c : Config) : Setup Float :=
  { settings := c.estimator
    unit := c.unit
    bufferSize := c.server.bufferSize.toNat
    saves := c.server.saveDir.isSome }

/-- How an upload arrives. -/
inductive Delivery where
  /-- All reads succeed. -/
  | complete (reads : List (List UInt8))
  /-- The connection breaks or takes too long. -/
  | broken

/-- How the connections of one session behave. -/
structure Exchange (α : Type) where
  /-- The upload of the client. -/
  client : Delivery
  /-- The upload of the leader. -/
  leader : Delivery
  /-- Whether the client's upload can be saved. -/
  clientSaved : Bool
  /-- Whether the leader's upload can be saved. -/
  leaderSaved : Bool
  /-- Whether the answer is fetched and sent completely. -/
  answered : Bool
  /-- How long the session takes, in milliseconds. -/
  milliseconds : α

/-- The answer of a session. -/
inductive Answer (α : Type) where
  /-- The clock offset in nanoseconds. -/
  | offset (nanoseconds : α)
  /-- The estimation failed. -/
  | failed
deriving Repr, BEq

/-- The double that stands for an answer, not a number if the estimation failed. -/
def Answer.nanoseconds : Answer Float → Float
  | .offset nanoseconds => nanoseconds
  | .failed => 0 / 0

/-- An answer as it is sent: the bytes of its double, the highest first. -/
def Answer.bytes (a : Answer Float) : List UInt8 := bigEndian a.nanoseconds.toBits

@[simp] theorem Answer.length_bytes (a : Answer Float) : a.bytes.length = 8 :=
  length_bigEndian _

example : Answer.failed.bytes = [0x7f, 0xf8, 0, 0, 0, 0, 0, 0] := by decide

/-- What a server has counted and saved. -/
structure Totals (α : Type) where
  /-- Sessions that have ended. -/
  sessions : Nat
  /-- Sessions that ended without a complete answer. -/
  aborted : Nat
  /-- The bytes of all uploads that were received completely. -/
  bytesReceived : Nat
  /-- The estimations. -/
  tally : Tally α
  /-- The saved files, by the place of the upload in its session. -/
  saved : List (Nat × List UInt8)

variable {α : Type} [Scalar α] [NumberText α]

/-- Nothing counted yet. -/
def Totals.empty : Totals α := ⟨0, 0, 0, Tally.empty, []⟩

/-- The name of the file for an upload. -/
def fileName (place : Nat) : String := s!"gyro_file_{place}.csv"

/-- Puts a file in the place of an earlier one of the same name. -/
def save (place : Nat) (bytes : List UInt8) (files : List (Nat × List UInt8)) :
    List (Nat × List UInt8) :=
  files.filter (fun f => f.1 != place) ++ [(place, bytes)]

/-- Takes one upload: its bytes, unless the exchange breaks, and the totals afterwards. -/
def takeUpload (setup : Setup α) (place : Nat) (delivery : Delivery) (canSave : Bool)
    (totals : Totals α) : Option (List UInt8) × Totals α × List (Event α) :=
  match delivery with
  | .broken => (none, totals, [])
  | .complete reads =>
    match Upload.receive (α := α) setup.bufferSize reads with
    | .error _ => (none, totals, [])
    | .ok bytes =>
      let counted := { totals with bytesReceived := totals.bytesReceived + bytes.length }
      let events := [.bytesReceived bytes.length]
      if !setup.saves then (some bytes, counted, events)
      else if canSave then
        (some bytes, { counted with saved := save place bytes counted.saved }, events)
      else (none, counted, events)

/-- Reads two uploads as recordings and estimates the offset of their clocks. -/
def estimate (setup : Setup α) (client leader : List UInt8) : Run α :=
  match Recording.parseBytes (α := α) setup.unit client with
  | .error fault => ⟨.error fault, []⟩
  | .ok first =>
    let clientRead : Event α := .uploaded "client" client.length first.samples.length
    match Recording.parseBytes (α := α) setup.unit leader with
    | .error fault => ⟨.error fault, [clientRead]⟩
    | .ok second =>
      let leaderRead : Event α := .uploaded "leader" leader.length second.samples.length
      let run := Run.ofRecordings first second setup.settings
      ⟨run.result, [clientRead, leaderRead] ++ run.events⟩

/-- The answer to the result of an estimation. -/
def answer : Except (Fault α) (Report α) → Answer α
  | .ok report => .offset report.clockOffsetNanoseconds
  | .error _ => .failed

/-- Records the result of an estimation in a tally. -/
def record (t : Tally α) : Except (Fault α) (Report α) → Tally α
  | .ok report =>
    t.success report.estimate.delay report.estimate.corrected (some report.clockOffset)
  | .error fault => t.failure fault.kind

/-- The status under which a session with an answer is counted. -/
def statusOf : Except (Fault α) (Report α) → String
  | .ok _ => "ok"
  | .error fault => fault.kind

/-- The outcome of one session: its status, the answer that was sent, if any, the totals
before the session is counted, and what was measured. -/
structure Outcome (α : Type) where
  status : String
  sent : Option (Answer α)
  totals : Totals α
  events : List (Event α)

/-- A session that ends without an answer. -/
def Outcome.abort (totals : Totals α) (events : List (Event α)) : Outcome α :=
  { status := "aborted", sent := none
    totals := { totals with aborted := totals.aborted + 1 }, events := events }

/-- One session up to its end. -/
def converse (setup : Setup α) (exchange : Exchange α) (totals : Totals α) : Outcome α :=
  match takeUpload setup 0 exchange.client exchange.clientSaved totals with
  | (none, totals, events) => Outcome.abort totals events
  | (some client, totals, clientEvents) =>
    match takeUpload setup 1 exchange.leader exchange.leaderSaved totals with
    | (none, totals, events) => Outcome.abort totals (clientEvents ++ events)
    | (some leader, totals, leaderEvents) =>
      let run := estimate setup client leader
      let offset : List (Event α) := match run.result with
        | .ok report => [.clockOffset report.clockOffset]
        | .error _ => []
      let events := clientEvents ++ leaderEvents ++ run.events ++ offset
      let totals := { totals with tally := record totals.tally run.result }
      if exchange.answered then
        { status := statusOf run.result, sent := some (answer run.result)
          totals := totals, events := events }
      else Outcome.abort totals events

/-- One session with its book-keeping. -/
def session (setup : Setup α) (exchange : Exchange α) (totals : Totals α) :
    Option (Answer α) × Totals α × List (Event α) :=
  let outcome := converse setup exchange totals
  (outcome.sent, { outcome.totals with sessions := outcome.totals.sessions + 1 },
    outcome.events ++ [.session outcome.status exchange.milliseconds])

/-- What a run of the server leaves behind. -/
structure Log (α : Type) where
  /-- The answer of each session, `none` if it was aborted. -/
  answers : List (Option (Answer α))
  /-- The totals. -/
  totals : Totals α
  /-- What was measured. -/
  events : List (Event α)

/-- Runs sessions one after the other, beginning with the given totals, until `limit`
sessions have ended; without a limit, all of them. -/
def runFrom (setup : Setup α) (limit : Option Nat) (totals : Totals α) :
    List (Exchange α) → Log α
  | [] => ⟨[], totals, []⟩
  | exchange :: rest =>
    if limit.any (· ≤ totals.sessions) then ⟨[], totals, []⟩
    else
      let (sent, totals, events) := session setup exchange totals
      let log := runFrom setup limit totals rest
      ⟨sent :: log.answers, log.totals, events ++ log.events⟩

/-- Runs sessions on a fresh server. -/
def run (setup : Setup α) (limit : Option Nat) (exchanges : List (Exchange α)) : Log α :=
  runFrom setup limit Totals.empty exchanges

/-- Sessions per minute for a run of some seconds, zero if it took no time. -/
def sessionRate (sessions : Nat) (seconds : α) : α :=
  if Scalar.zero < seconds then Scalar.ofNat sessions / seconds * Scalar.ofNat 60
  else Scalar.zero

end GyroDelay.Server

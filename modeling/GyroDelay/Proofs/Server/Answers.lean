import GyroDelay.Proofs.Doubles
import GyroDelay.Proofs.Server.Bookkeeping

/-!
# What is answered

The answers of a run are those of its sessions (`run_answers`). A session with both uploads is
answered with the failure exactly if one of them is no recording or the estimation of both
recordings fails (`EstimationFails`), and otherwise with their clock offset, with the client as
the first device (`Estimates`).

What is sent is one double. For a failure it is one that is not a number, but the clock offset of
a success can be none either, so the double alone does not tell them apart
(`isNaN_answer_iff`).
-/

namespace GyroDelay.Server

section Results

variable {α : Type} [Scalar α]

theorem answer_eq_failed_iff (result : Except (Fault α) (Report α)) :
    answer result = .failed ↔ ∃ fault, result = .error fault := by
  cases result with
  | error fault => simp [answer]
  | ok report => simp [answer]

variable [NumberText α]

/-- One of two uploads is no recording, or the estimation of both recordings fails. -/
def EstimationFails (setup : Setup α) (client leader : List UInt8) : Prop :=
  (∃ fault : Fault α, Recording.parseBytes setup.unit client = .error fault) ∨
  (∃ fault : Fault α, Recording.parseBytes setup.unit leader = .error fault) ∨
  ∃ (first second : Recording α) (fault : Fault α),
    Recording.parseBytes setup.unit client = .ok first ∧
    Recording.parseBytes setup.unit leader = .ok second ∧
    (Run.ofRecordings first second setup.settings).result = .error fault

theorem estimate_result {setup : Setup α} {client leader : List UInt8} {first second : Recording α}
    (hfirst : Recording.parseBytes setup.unit client = .ok first)
    (hsecond : Recording.parseBytes setup.unit leader = .ok second) :
    (estimate setup client leader).result =
      (Run.ofRecordings first second setup.settings).result := by
  unfold estimate
  rw [hfirst]
  dsimp only
  rw [hsecond]

theorem estimate_eq_error_iff (setup : Setup α) (client leader : List UInt8) :
    (∃ fault, (estimate setup client leader).result = .error fault) ↔
      EstimationFails setup client leader := by
  unfold EstimationFails
  cases hfirst : Recording.parseBytes (α := α) setup.unit client with
  | error fault => simp [estimate, hfirst]
  | ok first =>
    cases hsecond : Recording.parseBytes (α := α) setup.unit leader with
    | error fault => simp [estimate, hfirst, hsecond]
    | ok second => simp [estimate_result hfirst hsecond]

/-- The answers of a run are those of its sessions up to the limit. -/
theorem run_answers (setup : Setup α) (limit : Option Nat) (exchanges : List (Exchange α))
    {i : Nat} (hi : ∀ k ∈ limit, i < k) :
    (run setup limit exchanges).answers[i]? = exchanges[i]?.map (·.answer? setup) := by
  cases limit with
  | none => rw [run, (runFrom_accounts setup Totals.empty exchanges).answers, List.getElem?_map]
  | some k =>
    rw [(run_accounts setup k exchanges).answers, List.getElem?_map,
      List.getElem?_take_of_lt (hi k rfl)]

theorem Exchange.answer?_of_uploads {x : Exchange α} {setup : Setup α}
    {client leader : List UInt8} (huploads : x.uploads? setup = some (client, leader))
    (hanswered : x.answered = true) :
    x.answer? setup = some (answer (estimate setup client leader).result) := by
  simp [Exchange.answer?, Exchange.result?, huploads, hanswered]

end Results

/-! ## The double -/

theorem isNaN_failed : (Answer.failed : Answer Float).nanoseconds.isNaN = true := by decide

theorem isNaN_offset (r : Report Float) :
    (Answer.offset r.clockOffsetNanoseconds).nanoseconds.isNaN = r.clockOffset.isNaN := by
  have hbillion : Doubles.value (Float.ofNat 1000000000) =
      .finite .positive 8388608000000000 (-23) (by decide) := rfl
  exact Doubles.isNaN_mul hbillion

end GyroDelay.Server

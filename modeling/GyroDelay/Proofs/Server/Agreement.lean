import GyroDelay.Command.Estimate
import GyroDelay.Proofs.Outcome
import GyroDelay.Proofs.Server.Answers

/-!
# The server and the command agree

The command `estimate` reads two files, the server is sent two uploads. With the same bytes, the
same unit and the same settings, the command succeeds with a report exactly if the estimation of
the server does (`report_eq_ok_iff`), although the one checks that a whole file is text before it
reads a line and the other one splits what it was sent.

The answer of the session is then that of the command (`answer_agrees_with_report`): the failure
if the command fails, and otherwise the clock offset of its report in nanoseconds. A clock offset
that overflows is not a number either, and the command reports it all the same
(`answer_overflowing`). An answer is therefore a number exactly if the command succeeds with a
clock offset that is one.
-/

namespace GyroDelay

/-! ## Reading -/

section Reading

variable {α : Type} [Scalar α] [NumberText α]

namespace Recording

/-- From a file comes the recording that its bytes hold. -/
theorem load_eq_ok_iff {files : Files} {unit : TimeUnit} {path : String} {bytes : List UInt8}
    (hbytes : files.read path = .ok bytes) {r : Recording α} :
    load files unit path = .ok r ↔ parseBytes unit bytes = .ok r := by
  cases hdecode : Text.decode bytes with
  | error fault =>
    have htext : files.text path = .error .notText := by
      simp only [Files.text, hbytes, hdecode, bind, Except.bind]
      rfl
    rw [load, htext, parseBytes, hdecode]
    simp
  | ok cs =>
    have htext : files.text path = .ok (String.ofList cs) := by
      simp only [Files.text, hbytes, hdecode, bind, Except.bind]
      rfl
    rw [load, htext, parseBytes, hdecode]
    simp only [String.toList_ofList]

theorem parseBytes_eq_error_of_decode {unit : TimeUnit} {bytes : List UInt8}
    {fault : Text.Utf8Fault} (h : Text.decode bytes = .error fault) :
    ∃ fault : Fault α, parseBytes unit bytes = .error fault := by
  unfold parseBytes
  rw [h]
  exact ⟨_, rfl⟩

end Recording

end Reading

theorem Command.attempt_eq_ok {β : Type} {what : String} {result : Except (Fault Float) β} {b : β}
    (h : attempt what result = .ok b) : result = .ok b := by
  cases result with
  | error fault => cases h
  | ok b' => exact congrArg _ (Except.ok.inj h)

/-! ## The same task -/

/-- A command finds in files the bytes `client` and `leader` and treats them in the unit and with
the settings of the configuration `c`. -/
structure EstimateOptions.Matches (o : EstimateOptions) (files : Files) (c : Config)
    (client leader : List UInt8) : Prop where
  config : ∃ config, Command.loadConfig files o.config = .ok config ∧
    o.apply config.estimator = c.estimator ∧ o.unit.getD config.unit = c.unit
  first : files.read o.first = .ok client
  second : files.read o.second = .ok leader

theorem Config.validate_estimator {c : Config} (h : c.validate = .ok ()) :
    c.estimator.validate = .ok () := by
  obtain ⟨_, hsettings, -⟩ := bind_eq_ok h
  exact hsettings

namespace EstimateOptions.Matches

variable {o : EstimateOptions} {files : Files} {c : Config} {client leader : List UInt8}

theorem report_eq (h : o.Matches files c client leader) (hc : c.validate = .ok ()) :
    o.report files = (do
      let first ← Command.attempt s!"Failed to read {o.first}"
        (Recording.load files c.unit o.first)
      let second ← Command.attempt s!"Failed to read {o.second}"
        (Recording.load files c.unit o.second)
      Command.attempt "Delay estimation failed"
        (Run.ofRecordings first second c.estimator).result) := by
  obtain ⟨config, hconfig, hsettings, hunit⟩ := h.config
  unfold report
  rw [hconfig]
  change (do
    Command.attempt "Invalid estimator settings" (o.apply config.estimator).validate
    _) = _
  rw [hsettings, Config.validate_estimator hc, hunit]
  rfl

/-- **The command has a report exactly if the server has it.** -/
theorem report_eq_ok_iff (h : o.Matches files c client leader) (hc : c.validate = .ok ())
    {r : Report Float} :
    o.report files = .ok r ↔
      (Server.estimate (Server.Setup.ofConfig c) client leader).result = .ok r := by
  rw [h.report_eq hc]
  constructor
  · intro hreport
    obtain ⟨first, hfirst, hrest⟩ := bind_eq_ok hreport
    obtain ⟨second, hsecond, hrun⟩ := bind_eq_ok hrest
    have hclient : Recording.parseBytes (Server.Setup.ofConfig c).unit client = .ok first :=
      (Recording.load_eq_ok_iff h.first).mp (Command.attempt_eq_ok hfirst)
    have hleader : Recording.parseBytes (Server.Setup.ofConfig c).unit leader = .ok second :=
      (Recording.load_eq_ok_iff h.second).mp (Command.attempt_eq_ok hsecond)
    rw [Server.estimate_result hclient hleader]
    exact Command.attempt_eq_ok hrun
  · intro hresult
    cases hclient : Recording.parseBytes (α := Float) (Server.Setup.ofConfig c).unit client with
    | error fault => simp [Server.estimate, hclient] at hresult
    | ok first =>
      cases hleader : Recording.parseBytes (α := Float) (Server.Setup.ofConfig c).unit leader with
      | error fault => simp [Server.estimate, hclient, hleader] at hresult
      | ok second =>
        rw [Server.estimate_result hclient hleader] at hresult
        have hfirst : Recording.load files c.unit o.first = .ok first :=
          (Recording.load_eq_ok_iff h.first).mpr hclient
        have hsecond : Recording.load files c.unit o.second = .ok second :=
          (Recording.load_eq_ok_iff h.second).mpr hleader
        rw [hfirst, hsecond]
        change Command.attempt "Delay estimation failed" (Run.ofRecordings first second
          (Server.Setup.ofConfig c).settings).result = _
        rw [hresult]
        rfl

theorem report_eq_error_iff (h : o.Matches files c client leader) (hc : c.validate = .ok ()) :
    (∃ failure, o.report files = .error failure) ↔
      ∃ fault, (Server.estimate (Server.Setup.ofConfig c) client leader).result =
        .error fault := by
  have hok := fun r => h.report_eq_ok_iff hc (r := r)
  cases hreport : o.report files with
  | ok r => simp [(hok r).mp hreport]
  | error failure =>
    cases hresult : (Server.estimate (Server.Setup.ofConfig c) client leader).result with
    | ok r => simp [(hok r).mpr hresult] at hreport
    | error fault => simp

end EstimateOptions.Matches

/-! ## A command and a session with one task -/

namespace Server

/-- Recordings are taken as they are, with their timestamps in seconds. -/
def plainConfig : Config :=
  { Config.default with
    estimator := { Settings.default with resample := false }
    unit := .seconds }

/-- The command with the same settings. -/
def plainOptions : EstimateOptions :=
  { first := "client.csv", second := "leader.csv", config := none, accuracy := none
    noResample := true, rejectRoots := false, unit := some .seconds, json := true }

/-- Two recordings in files. -/
def twoFiles (client leader : List UInt8) : Files :=
  ⟨fun path =>
    if path = "client.csv" then .ok client
    else if path = "leader.csv" then .ok leader
    else .error .missing⟩

/-- Two recordings as uploads, each in one read. -/
def twoUploads (client leader : List UInt8) : Exchange Float :=
  { client := .complete [client], leader := .complete [leader], clientSaved := true
    leaderSaved := true, answered := true, milliseconds := 1 }

theorem validate_plainConfig : plainConfig.validate = .ok () := rfl

theorem bufferSize_plainConfig : (Setup.ofConfig plainConfig).bufferSize ≠ 0 := by decide

theorem matches_plainOptions (client leader : List UInt8) :
    plainOptions.Matches (twoFiles client leader) plainConfig client leader where
  config := ⟨Config.default, rfl, rfl, rfl⟩
  first := rfl
  second := rfl

theorem kept?_oneRead {setup : Setup Float} (h : setup.bufferSize ≠ 0) (bytes : List UInt8) :
    (Delivery.complete [bytes]).kept? setup true = some bytes := by
  have hread : ([bytes].takeWhile (! ·.isEmpty)).flatten = bytes := by
    cases bytes <;> simp
  simp only [Delivery.kept?, Delivery.bytes?, Bool.not_true, Bool.and_false, Bool.false_eq_true,
    if_false, h, hread]

theorem uploads?_twoUploads {setup : Setup Float} (h : setup.bufferSize ≠ 0)
    (client leader : List UInt8) :
    (twoUploads client leader).uploads? setup = some (client, leader) := by
  simp only [twoUploads, Exchange.uploads?, kept?_oneRead h, Option.bind_some, Option.map_some]

/-- Three turns, one about each axis, at the given times. -/
def turns (a b c : String) : List UInt8 :=
  ("1,0,0," ++ a ++ "\n0,2,0," ++ b ++ "\n0,0,1," ++ c ++ "\n").toUTF8.toList

/-- Two recordings whose clocks are ten seconds apart. -/
def earlyTurns : List UInt8 := turns "0" "1" "2"

def lateTurns : List UInt8 := turns "10" "11" "12"

/-- Two recordings whose differences of timestamps are too large for a double. -/
def wideTurns : List UInt8 := turns "-1.7e308" "-1.6e308" "1.75e308"

def farTurns : List UInt8 := turns "-1e307" "-9e306" "-8e306"

theorem exists_of_toOption_map {result : Except (Fault Float) (Report Float)} {b : Bool}
    (h : result.toOption.map (·.clockOffset.isNaN) = some b) :
    ∃ r, result = .ok r ∧ r.clockOffset.isNaN = b := by
  cases result with
  | error fault => cases h
  | ok r => exact ⟨r, rfl, Option.some.inj h⟩

theorem exists_report_earlyTurns :
    ∃ r, (estimate (Setup.ofConfig plainConfig) earlyTurns lateTurns).result = .ok r ∧
      r.clockOffset.isNaN = false :=
  exists_of_toOption_map (by decide +kernel)

theorem exists_report_wideTurns :
    ∃ r, (estimate (Setup.ofConfig plainConfig) wideTurns farTurns).result = .ok r ∧
      r.clockOffset.isNaN = true :=
  exists_of_toOption_map (by decide +kernel)

/-! ## The answer -/

theorem answers_of_uploads {α : Type} [Scalar α] [NumberText α] {setup : Setup α}
    {client leader : List UInt8} (limit : Option Nat) {exchanges : List (Exchange α)} {i : Nat}
    {x : Exchange α} (hx : exchanges[i]? = some x) (hi : ∀ k ∈ limit, i < k)
    (huploads : x.uploads? setup = some (client, leader)) (hanswered : x.answered = true) :
    (run setup limit exchanges).answers[i]? =
      some (some (answer (estimate setup client leader).result)) := by
  rw [run_answers setup limit exchanges hi, hx, Option.map_some,
    Exchange.answer?_of_uploads huploads hanswered]

/-- **A session is answered what the command reports on the same bytes.** -/
theorem answer_agrees_with_report {c : Config} (hc : c.validate = .ok ()) {o : EstimateOptions}
    {files : Files} {client leader : List UInt8} (h : o.Matches files c client leader)
    (limit : Option Nat) (exchanges : List (Exchange Float)) {i : Nat} {x : Exchange Float}
    (hx : exchanges[i]? = some x) (hi : ∀ k ∈ limit, i < k)
    (huploads : x.uploads? (Setup.ofConfig c) = some (client, leader))
    (hanswered : x.answered = true) :
    ∃ reply, (run (Setup.ofConfig c) limit exchanges).answers[i]? = some (some reply) ∧
      (reply = .failed ↔ ∃ failure, o.run files = .error failure) ∧
      (∀ r, o.report files = .ok r →
        o.run files = .ok (o.render r) ∧ reply = .offset (r.clockOffset * 1000000000)) ∧
      (reply.nanoseconds.isNaN = false ↔
        ∃ r, o.report files = .ok r ∧ r.clockOffset.isNaN = false) ∧
      ((∃ fault, Text.decode client = .error fault) ∨
          (∃ fault, Text.decode leader = .error fault) →
        reply = .failed ∧ ∃ failure, o.run files = .error failure) := by
  have hok := fun r => h.report_eq_ok_iff hc (r := r)
  have hrun : (∃ failure, o.run files = .error failure) ↔
      ∃ fault, (estimate (Setup.ofConfig c) client leader).result = .error fault := by
    rw [← h.report_eq_error_iff hc]
    constructor
    · rintro ⟨failure, hfailure⟩
      exact ⟨failure, map_eq_error hfailure⟩
    · rintro ⟨failure, hfailure⟩
      exact ⟨failure, congrArg (Except.map o.render) hfailure⟩
  refine ⟨_, answers_of_uploads limit hx hi huploads hanswered, ?_, ?_, ?_, ?_⟩
  · rw [answer_eq_failed_iff, hrun]
  · intro r hr
    refine ⟨congrArg (Except.map o.render) hr, ?_⟩
    rw [(hok r).mp hr]
    rfl
  · constructor
    · intro hnumber
      cases hresult : (estimate (Setup.ofConfig c) client leader).result with
      | error fault =>
        rw [hresult, answer, isNaN_failed] at hnumber
        contradiction
      | ok r =>
        rw [hresult, answer, isNaN_offset] at hnumber
        exact ⟨r, (hok r).mpr hresult, hnumber⟩
    · rintro ⟨r, hr, hnumber⟩
      rwa [(hok r).mp hr, answer, isNaN_offset]
  · intro hdecode
    rw [answer_eq_failed_iff, hrun, and_self]
    refine (estimate_eq_error_iff (Setup.ofConfig c) client leader).mpr ?_
    obtain ⟨fault, hclient⟩ | ⟨fault, hleader⟩ := hdecode
    · exact .inl (Recording.parseBytes_eq_error_of_decode hclient)
    · exact .inr (.inl (Recording.parseBytes_eq_error_of_decode hleader))

/-- The clock of the second device is ten seconds ahead, and both are told so. -/
theorem answer_tenSecondsAhead :
    plainConfig.validate = .ok () ∧
      plainOptions.Matches (twoFiles earlyTurns lateTurns) plainConfig earlyTurns lateTurns ∧
      ∃ reply r,
        (run (Setup.ofConfig plainConfig) none [twoUploads earlyTurns lateTurns]).answers[0]? =
          some (some reply) ∧
        plainOptions.report (twoFiles earlyTurns lateTurns) = .ok r ∧
        r.clockOffset.isNaN = false ∧ reply = .offset (r.clockOffset * 1000000000) ∧
        reply.nanoseconds.isNaN = false := by
  have h := matches_plainOptions earlyTurns lateTurns
  have huploads := uploads?_twoUploads bufferSize_plainConfig earlyTurns lateTurns
  obtain ⟨r, hr, hnumber⟩ := exists_report_earlyTurns
  have hreport := (h.report_eq_ok_iff validate_plainConfig).mpr hr
  obtain ⟨reply, hreply, -, hoffset, hiff, -⟩ :=
    answer_agrees_with_report validate_plainConfig h none [twoUploads earlyTurns lateTurns]
      (i := 0) rfl nofun huploads rfl
  exact ⟨validate_plainConfig, h, reply, r, hreply, hreport, hnumber, (hoffset r hreport).2,
    hiff.mpr ⟨r, hreport, hnumber⟩⟩

/-- The command succeeds with a clock offset that is no number, so the answer is none, either. -/
theorem answer_overflowing :
    plainConfig.validate = .ok () ∧
      plainOptions.Matches (twoFiles wideTurns farTurns) plainConfig wideTurns farTurns ∧
      (twoUploads wideTurns farTurns).uploads? (Setup.ofConfig plainConfig) =
        some (wideTurns, farTurns) ∧
      (twoUploads wideTurns farTurns).answered = true ∧
      ∃ reply,
        (run (Setup.ofConfig plainConfig) none [twoUploads wideTurns farTurns]).answers[0]? =
          some (some reply) ∧
        ¬ (reply.nanoseconds.isNaN = false ↔
          ∃ r, plainOptions.report (twoFiles wideTurns farTurns) = .ok r) := by
  have h := matches_plainOptions wideTurns farTurns
  have huploads := uploads?_twoUploads bufferSize_plainConfig wideTurns farTurns
  obtain ⟨r, hr, hnan⟩ := exists_report_wideTurns
  have hreport := (h.report_eq_ok_iff validate_plainConfig).mpr hr
  refine ⟨validate_plainConfig, h, huploads, rfl, _,
    answers_of_uploads none (i := 0) rfl nofun huploads rfl, ?_⟩
  rw [hr, answer, isNaN_offset, hnan]
  intro hiff
  have := hiff.mpr ⟨r, hreport⟩
  contradiction

end Server

end GyroDelay

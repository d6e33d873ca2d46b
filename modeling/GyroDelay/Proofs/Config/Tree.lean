import Mathlib.Algebra.Group.Nat.Defs
import Mathlib.Data.Int.Notation
import GyroDelay.Config.Basic

/-!
# Configurations and their trees

The tree of a configuration has the records of the three parts of the program, each with its
settings by their names. A setting that may be absent is left out when it is absent, or it is
there and holds nothing (`Absence`). Both ways every dialect reads a configuration back from its
tree, setting by setting (`ofTree?_tree`); the configuration does not have to be valid.
-/

namespace GyroDelay.Config

/-! ## The tree of a configuration -/

/-- How a setting that may be absent is written when it is. -/
inductive Absence where
  /-- It is left out. -/
  | leftOut
  /-- It is there and holds nothing. -/
  | null

/-- What the field of a setting that may be absent is read from. -/
def Absence.field : Absence → Option Tree → Option Tree
  | leftOut, t => t
  | null, t => some (t.getD .null)

/-- The members for a setting that may be absent. -/
def Absence.members (a : Absence) (name : String) (t : Option Tree) : List (String × Tree) :=
  ((a.field t).map fun t => (name, t)).toList

/-- The members of the settings of an estimation. -/
def settingsMembers (s : Settings Float) : List (String × Tree) := [
  ("accuracy", .double s.accuracy),
  ("resample", .bool s.resample),
  ("complex_roots", .text s.rootPolicy.name),
  ("max_grid_len", .integer s.gridLimit.toNat)]

/-- The members of the settings of the server. -/
def serverMembers (a : Absence) (s : ServerSettings) : List (String × Tree) :=
  [("host", .text s.host),
   ("port", .integer s.port.toNat),
   ("read_buffer_size", .integer s.bufferSize.toNat)] ++
  a.members "metrics_port" (s.metricsPort.map fun p => .integer p.toNat) ++
  a.members "save_dir" (s.saveDir.map .text) ++
  [("read_timeout_ms", .integer s.timeLimit.toNat)]

/-- The parts of a configuration with their members. -/
def sections (a : Absence) (c : Config) : List (String × List (String × Tree)) := [
  ("estimator", settingsMembers c.estimator),
  ("input", [("timestamp_unit", .text c.unit.name)]),
  ("server", serverMembers a c.server)]

/-- The tree of members with these names. -/
def recordOf (members : List (String × Tree)) : Tree :=
  .record (members.map fun m => (some m.1, m.2))

/-- The tree of a configuration. -/
def tree (a : Absence) (c : Config) : Tree :=
  recordOf ((sections a c).map fun s => (s.1, recordOf s.2))

/-! ## Fields -/

theorem isUnsigned_natCast {bits n : ℕ} (h : n < 2 ^ bits) : isUnsigned bits (n : ℤ) = true := by
  rw [isUnsigned, Bool.and_eq_true, decide_eq_true_eq, decide_eq_true_eq]
  exact ⟨Int.natCast_nonneg n, Int.ofNat_lt.mpr h⟩

theorem word16?_toNat (w : UInt16) : Tree.word16? (.integer w.toNat) = some w := by
  rw [Tree.word16?, Tree.word?, if_pos (isUnsigned_natCast w.toNat_lt), Option.map_some,
    Int.toNat_natCast, UInt16.ofNat_toNat]

theorem word64?_toNat (w : UInt64) : Tree.word64? (.integer w.toNat) = some w := by
  rw [Tree.word64?, Tree.word?, if_pos (isUnsigned_natCast w.toNat_lt), Option.map_some,
    Int.toNat_natCast, UInt64.ofNat_toNat]

theorem optional?_word16 (w : UInt16) :
    Tree.optional? Tree.word16? (.integer w.toNat) = some (some w) := by
  rw [Tree.optional?, word16?_toNat, Option.map_some]
  exact nofun

theorem optional?_text (s : String) : Tree.optional? Tree.text? (.text s) = some (some s) := rfl

theorem field?_some {β : Type} (default : β) (read : Tree → Option β) (t : Tree) :
    field? default read (some t) = read t := rfl

/-- A setting that is absent by default is read back from what it is written as. -/
theorem field?_absence {β : Type} {read : Tree → Option β} {write : β → Tree}
    (h : ∀ b, Tree.optional? read (write b) = some (some b)) (a : Absence) (o : Option β) :
    field? none (Tree.optional? read) (a.field (o.map write)) = some o := by
  cases o with
  | none => cases a <;> rfl
  | some b => cases a <;> exact h b

theorem rootPolicy_ofName?_name (p : RootPolicy) : RootPolicy.ofName? p.name = some p := by
  cases p <;> decide

theorem unit_ofName?_name (u : TimeUnit) : TimeUnit.ofName? u.name = some u := by
  cases u <;> decide

/-! ## Parts -/

variable (d : Dialect)

theorem settingsOf?_members (s : Settings Float) :
    settingsOf? d (recordOf (settingsMembers s)) = some s := by
  have hfields : d.fields? ["accuracy", "resample", "complex_roots", "max_grid_len"]
      (recordOf (settingsMembers s)) = some [some (.double s.accuracy), some (.bool s.resample),
        some (.text s.rootPolicy.name), some (.integer s.gridLimit.toNat)] := by
    simp [Dialect.fields?, Dialect.single?, Dialect.named, recordOf, settingsMembers]
  have hlimit : field? (Settings.default : Settings Float).gridLimit Tree.word64?
      (some (.integer s.gridLimit.toNat)) = some s.gridLimit := by
    rw [field?_some, word64?_toNat]
  generalize some (Tree.integer s.gridLimit.toNat) = limit at hfields hlimit
  rw [settingsOf?, hfields]
  simp only [field?_some, hlimit, Tree.double?, Tree.bool?, Dialect.choice?,
    rootPolicy_ofName?_name, Option.bind_eq_bind, Option.bind_some, Option.pure_def]

theorem unitOf?_member (u : TimeUnit) :
    unitOf? d (recordOf [("timestamp_unit", .text u.name)]) = some u := by
  have hfields : d.fields? ["timestamp_unit"] (recordOf [("timestamp_unit", .text u.name)]) =
      some [some (.text u.name)] := by
    simp [Dialect.fields?, Dialect.single?, Dialect.named, recordOf]
  rw [unitOf?, hfields]
  simp only [field?_some, Dialect.choice?, unit_ofName?_name, Option.bind_eq_bind,
    Option.bind_some]

theorem fields?_serverMembers (a : Absence) (s : ServerSettings) :
    d.fields? ["host", "port", "read_buffer_size", "metrics_port", "save_dir", "read_timeout_ms"]
      (recordOf (serverMembers a s)) = some [some (.text s.host), some (.integer s.port.toNat),
        some (.integer s.bufferSize.toNat), a.field (s.metricsPort.map fun p => .integer p.toNat),
        a.field (s.saveDir.map .text), some (.integer s.timeLimit.toNat)] := by
  unfold serverMembers Absence.members
  generalize a.field (s.metricsPort.map _) = port
  generalize a.field (s.saveDir.map _) = dir
  cases port <;> cases dir <;>
    simp [Dialect.fields?, Dialect.single?, Dialect.named, recordOf]

-- stated of any fields, so that no proof computes with the words of 64 bits among the defaults
theorem serverOf?_of_fields {t : Tree} {s : ServerSettings}
    {host port size metricsPort dir limit : Option Tree}
    (h : d.fields? ["host", "port", "read_buffer_size", "metrics_port", "save_dir",
      "read_timeout_ms"] t = some [host, port, size, metricsPort, dir, limit])
    (hhost : field? defaultServer.host Tree.text? host = some s.host)
    (hport : field? defaultServer.port Tree.word16? port = some s.port)
    (hsize : field? defaultServer.bufferSize Tree.word64? size = some s.bufferSize)
    (hmetrics : field? defaultServer.metricsPort (Tree.optional? Tree.word16?) metricsPort =
      some s.metricsPort)
    (hdir : field? defaultServer.saveDir (Tree.optional? Tree.text?) dir = some s.saveDir)
    (hlimit : field? defaultServer.timeLimit Tree.word64? limit = some s.timeLimit) :
    serverOf? d t = some s := by
  rw [serverOf?, h]
  simp only [Option.bind_eq_bind, Option.bind_some, hhost, hport, hsize, hmetrics, hdir, hlimit,
    Option.pure_def]

theorem serverOf?_members (a : Absence) (s : ServerSettings) :
    serverOf? d (recordOf (serverMembers a s)) = some s := by
  refine serverOf?_of_fields d (fields?_serverMembers d a s) rfl ?_ ?_ ?_ ?_ ?_
  · rw [field?_some, word16?_toNat]
  · rw [field?_some, word64?_toNat]
  · exact field?_absence optional?_word16 a s.metricsPort
  · exact field?_absence optional?_text a s.saveDir
  · rw [field?_some, word64?_toNat]

/-- **Every dialect reads a configuration back from its tree.** -/
theorem ofTree?_tree (a : Absence) (c : Config) : ofTree? d (tree a c) = some c := by
  have hfields : d.fields? ["estimator", "input", "server"] (tree a c) =
      some [some (recordOf (settingsMembers c.estimator)),
        some (recordOf [("timestamp_unit", .text c.unit.name)]),
        some (recordOf (serverMembers a c.server))] := by
    simp [Dialect.fields?, Dialect.single?, Dialect.named, tree, sections, recordOf]
  rw [ofTree?, hfields]
  simp only [field?_some, settingsOf?_members, unitOf?_member, serverOf?_members,
    Option.bind_eq_bind, Option.bind_some, Option.pure_def]

end GyroDelay.Config

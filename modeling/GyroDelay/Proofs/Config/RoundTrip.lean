import GyroDelay.Config.Format
import GyroDelay.Proofs.Config.Tree
import GyroDelay.Proofs.Json.RoundTrip
import GyroDelay.Proofs.Outcome
import GyroDelay.Proofs.Toml.RoundTrip

/-!
# Configurations are read back from their texts

In TOML a configuration is written as three tables, a line for each setting
(`Toml.renderConfig_eq`); settings that are absent are left out. These lines are a document
whose tables make up the tree of the configuration (`Toml.parse?_renderConfig`). In JSON it is
written as one document, which is readable and has the same tree but for the absent settings,
which are null (`Json.tree_configDocument`, `Json.readable_configDocument`).

A format reads a double back if its text is read as this double (`Config.Format.ReadsBack`). With
that for the accuracy, a valid configuration is loaded from its text in both formats, equal in
every field (`Config.load_render`): whatever characters its host and its directory have, and
whichever settings are absent.
-/

namespace GyroDelay

open Config (Tree Absence)

/-! ## Lines and tables -/

namespace Toml

theorem isBare_of_all {name : String}
    (h : (!name.toList.isEmpty && name.toList.all isBareKey) = true) : IsBare name := by
  rw [Bool.and_eq_true, Bool.not_eq_true', List.isEmpty_eq_false_iff, List.all_eq_true] at h
  exact h

/-- A key with its value and the text of the value. -/
structure Entry where
  key : String
  text : String
  value : Tree

/-- The key needs no quotes, and the text is read as the value. -/
structure Entry.Valid (e : Entry) : Prop where
  bare : IsBare e.key
  reads : IsValue e.text.toList e.value

theorem Entry.Valid.of_all {key text : String} {value : Tree}
    (hkey : (!key.toList.isEmpty && key.toList.all isBareKey) = true)
    (h : IsValue text.toList value) : Entry.Valid ⟨key, text, value⟩ :=
  ⟨isBare_of_all hkey, h⟩

/-- The lines of entries. -/
def lines (entries : List Entry) : String :=
  (entries.map fun e => line e.key e.text).foldr (· ++ ·) ""

/-- The values of entries by their keys. -/
def members (entries : List Entry) : List (String × Tree) :=
  entries.map fun e => (e.key, e.value)

/-- The line that opens a table. -/
def header (name : String) : String := "[" ++ name ++ "]\n"

theorem document_lines {entries : List Entry} (hentries : ∀ e ∈ entries, e.Valid) {text : String}
    {ss : List Statement} (h : Document text.toList ss) :
    Document (lines entries ++ text).toList
      (((members entries).map fun e => .assignment [e.1] e.2) ++ ss) := by
  induction entries with
  | nil =>
    rw [lines, List.map_nil, List.foldr_nil, String.empty_append]
    exact h
  | cons e entries ih =>
    obtain ⟨he, hentries⟩ := List.forall_mem_cons.mp hentries
    have hline := Document.line (isStatement_assignment he.bare he.reads) (ih hentries)
    simpa [lines, line, members] using hline

theorem document_section {name : String} (hname : IsBare name) {entries : List Entry}
    (hentries : ∀ e ∈ entries, e.Valid) {text : String} {ss : List Statement}
    (h : Document text.toList ss) :
    Document (header name ++ (lines entries ++ text)).toList
      (Section.statements (name, members entries) ++ ss) := by
  have hheader := Document.line (isStatement_header hname) (document_lines hentries h)
  simpa [header, Section.statements] using hheader

theorem document_empty {text : String} {ss : List Statement} (h : Document text.toList ss) :
    Document ("\n" ++ text).toList ss := by
  rw [String.toList_append]
  exact .empty h

/-! ## Configurations in TOML -/

/-- A double is read back from the text in which it is written. -/
def ReadsBack (x : Float) : Prop := scalar? (doubleLayout.text x).toList = some (.double x)

theorem isValue_double {x : Float} (hfinite : x.isFinite = true) (h : ReadsBack x) :
    IsValue (doubleLayout.text x).toList (.double x) := by
  refine isValue_scalar ?_ h
  intro c hc
  have hplain : Decimal.IsPlain c := by
    refine Decimal.isPlain_text rfl rfl ?_ ?_ hfinite c hc
    · simp [doubleLayout, Decimal.IsPlain]
    · simp [doubleLayout, Decimal.IsPlain]
  rcases hplain with hdigit | rfl | rfl
  · exact isPlain_of_isDigit hdigit
  · decide
  · decide

theorem isValue_word16 (w : UInt16) : IsValue (toString w.toNat).toList (.integer w.toNat) :=
  isValue_natCast (Config.isUnsigned_natCast (w.toNat_lt.trans (by decide)))

theorem isValue_word64 (w : UInt64) : IsValue (toString w.toNat).toList (.integer w.toNat) :=
  isValue_natCast (Config.isUnsigned_natCast (w.toNat_lt.trans (by decide)))

/-- The entries of the settings of an estimation. -/
def settingsEntries (s : Settings Float) : List Entry := [
  ⟨"accuracy", doubleLayout.text s.accuracy, .double s.accuracy⟩,
  ⟨"resample", if s.resample then "true" else "false", .bool s.resample⟩,
  ⟨"complex_roots", quoted s.rootPolicy.name, .text s.rootPolicy.name⟩,
  ⟨"max_grid_len", toString s.gridLimit.toNat, .integer s.gridLimit.toNat⟩]

/-- The entry of the unit of timestamps. -/
def unitEntries (u : TimeUnit) : List Entry := [⟨"timestamp_unit", quoted u.name, .text u.name⟩]

/-- The entries of the settings of the server. -/
def serverEntries (s : ServerSettings) : List Entry :=
  [⟨"host", quoted s.host, .text s.host⟩,
   ⟨"port", toString s.port.toNat, .integer s.port.toNat⟩,
   ⟨"read_buffer_size", toString s.bufferSize.toNat, .integer s.bufferSize.toNat⟩] ++
  (s.metricsPort.map fun p => ⟨"metrics_port", toString p.toNat, .integer p.toNat⟩).toList ++
  (s.saveDir.map fun dir => ⟨"save_dir", quoted dir, .text dir⟩).toList ++
  [⟨"read_timeout_ms", toString s.timeLimit.toNat, .integer s.timeLimit.toNat⟩]

theorem valid_settingsEntries {s : Settings Float} (hfinite : s.accuracy.isFinite = true)
    (h : ReadsBack s.accuracy) : ∀ e ∈ settingsEntries s, e.Valid := by
  intro e he
  simp only [settingsEntries, List.mem_cons, List.not_mem_nil, or_false] at he
  rcases he with rfl | rfl | rfl | rfl
  · exact .of_all rfl (isValue_double hfinite h)
  · exact .of_all rfl (isValue_bool _)
  · exact .of_all rfl (isValue_quoted _)
  · exact .of_all rfl (isValue_word64 _)

theorem valid_unitEntries (u : TimeUnit) : ∀ e ∈ unitEntries u, e.Valid := by
  intro e he
  obtain rfl := List.mem_singleton.mp he
  exact .of_all rfl (isValue_quoted _)

theorem valid_serverEntries (s : ServerSettings) : ∀ e ∈ serverEntries s, e.Valid := by
  intro e he
  simp only [serverEntries, List.mem_append, List.mem_cons, List.not_mem_nil, or_false,
    Option.mem_toList, Option.map_eq_some_iff] at he
  rcases he with (((rfl | rfl | rfl) | ⟨p, -, rfl⟩) | ⟨dir, -, rfl⟩) | rfl
  · exact .of_all rfl (isValue_quoted _)
  · exact .of_all rfl (isValue_word16 _)
  · exact .of_all rfl (isValue_word64 _)
  · exact .of_all rfl (isValue_word16 _)
  · exact .of_all rfl (isValue_quoted _)
  · exact .of_all rfl (isValue_word64 _)

theorem members_serverEntries (s : ServerSettings) :
    members (serverEntries s) = Config.serverMembers .leftOut s := by
  obtain ⟨host, port, size, metrics, dir, limit⟩ := s
  cases metrics <;> cases dir <;> rfl

/-- The text of a configuration: three tables with empty lines between them. -/
theorem renderConfig_eq (c : Config) : renderConfig c =
    header "estimator" ++ (lines (settingsEntries c.estimator) ++
      ("\n" ++ (header "input" ++ (lines (unitEntries c.unit) ++
        ("\n" ++ (header "server" ++ (lines (serverEntries c.server) ++ ""))))))) := by
  have hestimator : "[estimator]\n" = header "estimator" := by decide
  have hinput : "\n[input]\n" = "\n" ++ header "input" := by decide
  have hserver : "\n[server]\n" = "\n" ++ header "server" := by decide
  unfold renderConfig
  simp only [hestimator, hinput, hserver]
  obtain ⟨settings, unit, ⟨host, port, size, metrics, dir, limit⟩⟩ := c
  cases metrics <;> cases dir <;>
    simp [lines, settingsEntries, unitEntries, serverEntries, String.append_assoc]

theorem document_renderConfig {c : Config} (hfinite : c.estimator.accuracy.isFinite = true)
    (h : ReadsBack c.estimator.accuracy) :
    Document (renderConfig c).toList
      ((Config.sections .leftOut c).flatMap Section.statements) := by
  have hend : Document "".toList [] := .nil
  have hserver := document_section (isBare_of_all rfl : IsBare "server")
    (valid_serverEntries c.server) hend
  have hunit := document_section (isBare_of_all rfl : IsBare "input")
    (valid_unitEntries c.unit) (document_empty hserver)
  have hsettings := document_section (isBare_of_all rfl : IsBare "estimator")
    (valid_settingsEntries hfinite h) (document_empty hunit)
  rw [members_serverEntries] at hsettings
  rw [renderConfig_eq]
  exact hsettings

theorem nodup_settingsMembers (s : Settings Float) :
    ((Config.settingsMembers s).map Prod.fst).Nodup := by
  simp [Config.settingsMembers]

theorem nodup_serverMembers (a : Absence) (s : ServerSettings) :
    ((Config.serverMembers a s).map Prod.fst).Nodup := by
  unfold Config.serverMembers Absence.members
  generalize a.field (s.metricsPort.map _) = port
  generalize a.field (s.saveDir.map _) = dir
  cases port <;> cases dir <;> simp

theorem parse?_renderConfig {c : Config} (hfinite : c.estimator.accuracy.isFinite = true)
    (h : ReadsBack c.estimator.accuracy) :
    parse? (renderConfig c).toList = some (Config.tree .leftOut c) := by
  have hmark : dropMark (renderConfig c).toList = (renderConfig c).toList := by
    rw [renderConfig_eq, header, String.toList_append, String.toList_append, String.toList_append]
    rfl
  have hkeys : ∀ s ∈ Config.sections .leftOut c, (s.2.map Prod.fst).Nodup := by
    intro s hs
    simp only [Config.sections, List.mem_cons, List.not_mem_nil, or_false] at hs
    rcases hs with rfl | rfl | rfl
    · exact nodup_settingsMembers _
    · exact List.nodup_singleton _
    · exact nodup_serverMembers _ _
  have hnames : ((Config.sections .leftOut c).map Prod.fst).Nodup := by
    simp [Config.sections]
  rw [(document_renderConfig hfinite h).parse? hmark, build?_sections hnames hkeys]
  rfl

theorem readConfig?_renderConfig {c : Config} (hfinite : c.estimator.accuracy.isFinite = true)
    (h : ReadsBack c.estimator.accuracy) : readConfig? (renderConfig c) = some c := by
  rw [readConfig?, parse?_renderConfig hfinite h, Option.bind_some, Config.ofTree?_tree]

end Toml

/-! ## Configurations in JSON -/

namespace Json

theorem tree_configDocument (c : Config) : (configDocument c).tree = Config.tree .null c := by
  obtain ⟨settings, unit, ⟨host, port, size, metrics, dir, limit⟩⟩ := c
  cases metrics <;> cases dir <;> rfl

theorem readable_word16 (w : UInt16) : Document.Readable (.integer w.toNat) :=
  .integer (.inr (Config.isUnsigned_natCast (w.toNat_lt.trans (by decide))))

theorem readable_word64 (w : UInt64) : Document.Readable (.integer w.toNat) :=
  .integer (.inr (Config.isUnsigned_natCast w.toNat_lt))

theorem readable_optional {β : Type} {write : β → Document} (h : ∀ b, (write b).Readable)
    (o : Option β) : Document.Readable ((o.map write).getD .null) := by
  cases o with
  | none => exact .null
  | some b => exact h b

theorem readable_configDocument {c : Config} (h : ReadsBack c.estimator.accuracy) :
    (configDocument c).Readable := by
  refine .record (List.forall_mem_cons.mpr ⟨.record ?_, List.forall_mem_cons.mpr ⟨.record ?_,
    List.forall_mem_singleton.mpr (.record ?_)⟩⟩)
  · intro m hm
    simp only [List.mem_cons, List.not_mem_nil, or_false] at hm
    rcases hm with rfl | rfl | rfl | rfl
    · exact .double h
    · exact .bool _
    · exact .text _
    · exact readable_word64 _
  · exact List.forall_mem_singleton.mpr (.text _)
  · intro m hm
    simp only [List.mem_cons, List.not_mem_nil, or_false] at hm
    rcases hm with rfl | rfl | rfl | rfl | rfl | rfl
    · exact .text _
    · exact readable_word16 _
    · exact readable_word64 _
    · exact readable_optional readable_word16 _
    · exact readable_optional .text _
    · exact readable_word64 _

theorem readConfig?_renderConfig {c : Config} (h : ReadsBack c.estimator.accuracy) :
    readConfig? (renderConfig c) = some c := by
  have hparse := parse?_pretty (readable_configDocument h)
  obtain ⟨j, hj, htree⟩ := Option.map_eq_some_iff.mp hparse
  rw [readConfig?, renderConfig, hj, Option.bind_some, htree, tree_configDocument,
    Config.ofTree?_tree]

end Json

/-! ## Loading -/

namespace Config

/-- A format reads a double back from the text in which it writes it. -/
def Format.ReadsBack : Format → Float → Prop
  | toml => Toml.ReadsBack
  | json => Json.ReadsBack

theorem isFinite_of_validate {c : Config} (h : c.validate = .ok ()) :
    c.estimator.accuracy.isFinite = true := by
  obtain ⟨_, hsettings, -⟩ := bind_eq_ok h
  rw [Settings.validate] at hsettings
  split at hsettings
  · cases hsettings
  · rename_i haccuracy
    rw [Bool.not_eq_true, Bool.not_eq_false', isAccuracy, Bool.and_eq_true] at haccuracy
    exact haccuracy.1

theorem read?_render {format : Format} {c : Config}
    (hfinite : c.estimator.accuracy.isFinite = true)
    (h : format.ReadsBack c.estimator.accuracy) : format.read? (format.render c) = some c := by
  cases format with
  | toml => exact Toml.readConfig?_renderConfig hfinite h
  | json => exact Json.readConfig?_renderConfig h

/-- **A valid configuration is loaded from its text**, equal in every field. -/
theorem load_render {format : Format} {c : Config} (hvalid : c.validate = .ok ())
    (h : format.ReadsBack c.estimator.accuracy) : load format (format.render c) = .ok c := by
  rw [load, read?_render (isFinite_of_validate hvalid) h]
  dsimp only
  rw [hvalid]
  rfl

/-- Quotes, a backslash, breaks and control characters in texts, and no setting is absent. -/
def quotedConfig : Config :=
  { default with
    unit := .milliseconds
    server := { defaultServer with
      host := "\"\"\"\\'''\n\r\x00é"
      metricsPort := some 9090
      saveDir := some "C:\\up'loads\t" } }

theorem load_render_quotedConfig : quotedConfig.validate = .ok () ∧
    Format.toml.ReadsBack quotedConfig.estimator.accuracy ∧
    Format.json.ReadsBack quotedConfig.estimator.accuracy ∧
    load .toml (Format.toml.render quotedConfig) = .ok quotedConfig ∧
    load .json (Format.json.render quotedConfig) = .ok quotedConfig := by
  have hvalid : quotedConfig.validate = .ok () := rfl
  have htoml : Format.toml.ReadsBack quotedConfig.estimator.accuracy := by
    change Toml.scalar? _ = _
    rfl
  have hnumeral : Json.readNumeral (Json.renderDouble quotedConfig.estimator.accuracy).toList =
      some (⟨false, ['0'], "001".toList, none⟩, []) := by
    decide +kernel
  have hjson : Format.json.ReadsBack quotedConfig.estimator.accuracy := by
    refine (Json.readsBack_iff hnumeral rfl).mpr ?_
    decide +kernel
  exact ⟨hvalid, htoml, hjson, load_render hvalid htoml, load_render hvalid hjson⟩

end Config

end GyroDelay

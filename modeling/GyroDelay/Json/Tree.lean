import GyroDelay.Config.Basic
import GyroDelay.Json.Reader
import GyroDelay.Json.Writer

/-!
# Configurations in JSON
-/

namespace GyroDelay.Json

open Config (Tree Dialect)

mutual

/-- The tree of a JSON value. Strings that are no text and numbers that are too large for a
double are unreadable, which matters only where they are wanted. -/
def toTree : Json → Tree
  | .null => .null
  | .bool b => .bool b
  | .number n =>
    match n.toInt? with
    | some i => .integer i
    | none =>
      match n.leading with
      | some x => .double x
      | none => .unreadable
  | .string (some s) => .text s
  | .string none => .unreadable
  | .array items => .list (toTrees items)
  | .object members => .record (toMembers members)

/-- The trees of the items of an array. -/
def toTrees : List Json → List Tree
  | [] => []
  | item :: items => toTree item :: toTrees items

/-- The trees of the members of an object. -/
def toMembers : List (Option String × Json) → List (Option String × Tree)
  | [] => []
  | (key, value) :: members => (key, toTree value) :: toMembers members

end

/-- A list may not be longer than the record it stands for, and a choice that is written as
a record has `null` behind its name. -/
def dialect : Dialect where
  longLists := false
  isUnit t := match t with
    | .null => true
    | _ => false

/-- The configuration that a JSON text holds. -/
def readConfig? (text : String) : Option Config :=
  (parse? text.toList).bind fun j => Config.ofTree? dialect (toTree j)

/-- The JSON document of a configuration. -/
def configDocument (c : Config) : Document :=
  let number (n : Nat) : Document := .integer n
  .record [
    ("estimator", .record [
      ("accuracy", .double c.estimator.accuracy),
      ("resample", .bool c.estimator.resample),
      ("complex_roots", .text c.estimator.rootPolicy.name),
      ("max_grid_len", number c.estimator.gridLimit.toNat)]),
    ("input", .record [("timestamp_unit", .text c.unit.name)]),
    ("server", .record [
      ("host", .text c.server.host),
      ("port", number c.server.port.toNat),
      ("read_buffer_size", number c.server.bufferSize.toNat),
      ("metrics_port", (c.server.metricsPort.map fun p => number p.toNat).getD .null),
      ("save_dir", (c.server.saveDir.map Document.text).getD .null),
      ("read_timeout_ms", number c.server.timeLimit.toNat)])]

/-- The JSON text of a configuration. -/
def renderConfig (c : Config) : String := (configDocument c).pretty

end GyroDelay.Json

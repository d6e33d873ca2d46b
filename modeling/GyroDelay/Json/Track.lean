import GyroDelay.Json.Tree
import GyroDelay.Recording.Basic

/-!
# Tracks in JSON

A track is a record of its samples, three numbers each, and its timestamps. A list of the
two stands for the record, other members are passed over, and neither field may be absent.
-/

namespace GyroDelay.Json

open Config (Tree)

/-- The list of what `read` takes from the items of a tree. -/
def listOf? {β : Type} (read : Tree → Option β) : Tree → Option (List β)
  | .list items => items.mapM read
  | _ => none

/-- The angular velocity in a tree. -/
def sample? (t : Tree) : Option (Vec3 Float) :=
  match listOf? Tree.double? t with
  | some [x, y, z] => some ⟨x, y, z⟩
  | _ => none

/-- The recording in a tree. -/
def recordingOf? (t : Tree) : Option (Recording Float) := do
  match ← dialect.fields? ["samples", "timestamps"] t with
  | [some samples, some times] =>
    return ⟨← listOf? sample? samples, ← listOf? Tree.double? times⟩
  | _ => none

/-- The track in a JSON text; none either if the recording in it is no track. -/
def readTrack? (text : String) : Option (Track Float) := do
  let j ← parse? text.toList
  (← recordingOf? (toTree j)).toTrack.toOption

end GyroDelay.Json

import GyroDelay.Files
import GyroDelay.Recording.Csv

/-!
# Recordings in files
-/

namespace GyroDelay.Recording

/-- The recording in a file. The whole file has to be text before its lines are read. -/
def load {α : Type} [Scalar α] [NumberText α] (files : Files) (unit : TimeUnit) (path : String) :
    Except (Fault α) (Recording α) :=
  match files.text path with
  | .error fault => .error (.file fault)
  | .ok text => parse unit text.toList

end GyroDelay.Recording

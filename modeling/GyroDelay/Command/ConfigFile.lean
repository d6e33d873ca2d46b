import GyroDelay.Command.Outcome
import GyroDelay.Config.Format

/-!
# The configuration of a command
-/

namespace GyroDelay.Command

/-- The configuration at a path, or the default one. -/
def loadConfig (files : Files) : Option String → Except Failure Config
  | none => .ok .default
  | some path =>
    if files.holds path then
      attempt s!"Failed to load config from {path}" (Config.loadFile files path)
    else .error ⟨s!"Configuration file not found: {path}", []⟩

end GyroDelay.Command

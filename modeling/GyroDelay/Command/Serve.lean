import GyroDelay.Command.Basic
import GyroDelay.Command.ConfigFile

/-!
# The command `serve`

Only what precedes the connections: the configuration of the server and its checks.
-/

namespace GyroDelay.Command

/-- A server that is to be started. -/
structure Listener where
  /-- The checked configuration. -/
  config : Config
  /-- After how many sessions it stops, if it stops. -/
  sessions : Option UInt64

end GyroDelay.Command

namespace GyroDelay.ServeOptions

open Command

/-- The settings of a configuration, changed by options. -/
def apply (o : ServeOptions) (s : ServerSettings) : ServerSettings :=
  { s with
    host := o.host.getD s.host
    port := o.port.getD s.port
    saveDir := o.saveDir <|> s.saveDir
    metricsPort := o.metricsPort <|> s.metricsPort }

/-- The server that options ask for. Options count before the settings are checked. -/
def listener (files : Files) (o : ServeOptions) : Except Failure Listener := do
  let loaded ← loadConfig files o.config
  let config := { loaded with server := o.apply loaded.server }
  attempt "Invalid server configuration" config.validate
  return { config := config, sessions := if o.maxSessions = 0 then none else some o.maxSessions }

end GyroDelay.ServeOptions

import LocalPlay.Settings.Basic
import LocalPlay.Text.Elapsed

/-!
# Settings for people

The overview of the settings has a line for each field, records with their fields below them. Unlike
in other output, the passphrase is shown.
-/

namespace LocalPlay

/-- A record with a field on each line, itself starting `depth` levels from the margin. -/
def recordOverview (depth : Nat) (name : String) (fields : List (String × String)) : String :=
  let margin (depth : Nat) := String.ofList (List.replicate (4 * depth) ' ')
  let line (field : String × String) := s!"{margin (depth + 1)}{field.1}: {field.2},\n"
  name ++ " \x7b\n" ++ String.join (fields.map line) ++ margin depth ++ "\x7d"

namespace Settings

def overview (settings : Settings) : String :=
  recordOverview 0 "Config"
    [("server", recordOverview 1 "ServerConfig"
        [("host", Text.debug settings.server.host), ("port", toString settings.server.port.toNat)]),
      ("passphrase", Text.debug settings.passphrase),
      ("disable_p2p", if settings.disableP2p then "true" else "false"),
      ("bind_address", settings.bindAddress.text),
      ("timeouts", recordOverview 1 "Timeouts"
        [("inactive", Text.elapsed settings.timeouts.inactive),
          ("failure", Text.elapsed settings.timeouts.failure),
          ("scan", Text.elapsed settings.timeouts.scan),
          ("auth_wait", Text.elapsed settings.timeouts.authWait)])]

end Settings

end LocalPlay

import LocalPlay.Command.Run

/-!
# The program

Reads the arguments, opens the log, reads the settings file, runs the command, and puts out what it
says.
-/

namespace LocalPlay

/-- The contents of a file. Whatever keeps it from being read, it counts as missing. -/
def readFile (path : String) : IO (Except Net.IoError Bytes) := do
  try
    return .ok (← IO.FS.readBinFile path).toList
  catch _ =>
    return .error .notFound

/-- Whether a log can be opened. Folders on the way to it are made if it cannot be opened at first. -/
def logOpens (path : String) : IO Bool := do
  match Command.splitPath? path with
  | none => return false
  | some (above, name) =>
    let start := if path.toList.head? = some '/' then "/" else "./"
    let folder := start ++ "/".intercalate above
    let log := s!"{folder}/{name}"
    try
      try
        discard <| IO.FS.Handle.mk log .append
      catch _ =>
        IO.FS.createDirAll folder
        discard <| IO.FS.Handle.mk log .append
      return true
    catch _ =>
      return false

/-- What the options lead to. -/
def look (options : Command.Options) : IO Command.Surroundings := do
  let logOpens ← match options.logPath with
    | none => pure true
    | some path => logOpens path
  let settings ← match options.settingsPath with
    | none => pure (.error .notFound)
    | some path => readFile path
  return { settings, logOpens, random := UInt32.ofNat (← IO.rand 0 (UInt32.size - 1)) }

def run (arguments : List String) : IO Command.Report := do
  match Command.Request.parse arguments with
  | .error error => return .misused error
  | .ok request => return Command.perform (← look request.options) request

end LocalPlay

def main (arguments : List String) : IO UInt32 := do
  let report ← LocalPlay.run arguments
  (← IO.getStdout).putStr report.output
  (← IO.getStderr).putStr report.errors
  return report.exit.toUInt32

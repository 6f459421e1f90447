import LocalPlay.Command.Folder
import LocalPlay.Command.Help
import LocalPlay.Session.Run
import LocalPlay.Settings.File
import LocalPlay.Settings.FreshPassphrase
import LocalPlay.Settings.Overview

/-!
# Running a command

A command is a function of its request and of what it finds around it: the settings file, whether
its log can be opened, and a random number. What it says on its two streams and how it exits is a
value. A scan has a relay that never answers: it opens a session, waits as long as the settings let
it, and closes the session again.
-/

namespace LocalPlay.Command

open Net

/-- What a run of the program leaves behind. -/
structure Report where
  exit : UInt8 := 0
  output : String := ""
  errors : String := ""
  deriving DecidableEq, Repr

namespace Report

def failed (message : String) : Report :=
  { exit := 1, errors := s!"Error: {message}\n" }

def misused (error : UsageError) : Report :=
  { exit := 2, errors := s!"error: {error.message}\n" }

/-- The program cannot go on, for a reason that is no failure of the command. -/
def aborted (message : String) : Report :=
  { exit := 101, errors := s!"{message}\n" }

end Report

/-- What a command finds around it. -/
structure Surroundings where
  settings : Except IoError Bytes := .error .notFound
  logOpens : Bool := true
  random : UInt32

/-- The settings to use, or what to say if they cannot be loaded. -/
def loadSettings (options : Options) (file : Except IoError Bytes) : Except String Settings :=
  match options.settingsPath with
  | none => .ok {}
  | some path =>
    match Settings.ofFile file with
    | .ok settings => .ok settings
    | .error _ => .error s!"Failed to load config from {path}"

/-- The networks a relay that never answers reports. -/
def scanSilence (session : Session) : List Wire.NetworkInfo :=
  let (_, session, told) := session.step (.call (.operate (.scan Block.zero)))
  let (session, later) := session.wait (session.timeouts.failure + session.timeouts.scan)
  let (_, _, last) := session.step (.call .leaveAndStop)
  (told ++ later ++ last).flatMap fun
    | .finished _ (.networks found) => found
    | _ => []

def scanReport (relay : Endpoint) (found : List Wire.NetworkInfo) : String :=
  let line (entry : Wire.NetworkInfo × Nat) :=
    s!"{entry.2}: NetworkInfo({entry.1.bytes.length} bytes, {entry.1.used} set)\n"
  s!"{found.length} network(s) on {relay.text}\n" ++ String.join (found.zipIdx.map line)

def scan (settings : Settings) : Report :=
  match Session.create settings (.ok []) (.ok settings.bindAddress) with
  | .error error => .failed error.message
  | .ok session => { output := scanReport session.relay (scanSilence session) }

def checkConfig (settings : Settings) : Report :=
  match settings.server.resolve with
  | .error error => .failed error.message
  | .ok relay => { output := s!"{settings.overview}\nRelay resolves to {relay.text}\n" }

def act (around : Surroundings) (options : Options) : Action → Report
  | .passphrase => { output := s!"{freshPassphrase around.random}\n" }
  | .checkConfig => withSettings checkConfig
  | .scan _ => withSettings scan
where
  withSettings (use : Settings → Report) : Report :=
    match loadSettings options around.settings with
    | .ok settings => use settings
    | .error message => .failed message

/-- Carries out a request. A log, if there is to be one, is opened before anything else. -/
def perform (around : Surroundings) : Request → Report
  | .help topic => { output := topic.text }
  | .run options action =>
    match options.logPath with
    | none => act around options action
    | some path =>
      if (splitPath? path).isNone then .failed s!"Log path {path} has no file name"
      else if around.logOpens then act around options action
      else .aborted s!"Log {path} cannot be opened"

/-- What the options lead to in a folder; the settings are read after the log has been opened. -/
def Folder.surroundings (folder : Folder) (random : UInt32) (options : Options) : Surroundings :=
  match options.logPath.mapM folder.openLog with
  | .error _ => { logOpens := false, random }
  | .ok opened =>
    match options.settingsPath with
    | none => { random }
    | some path => { settings := (opened.getD folder).read path, random }

/-- Runs the program in a folder. -/
def runIn (folder : Folder) (random : UInt32) (arguments : List String) : Report :=
  match Request.parse arguments with
  | .error error => .misused error
  | .ok request => perform (folder.surroundings random request.options) request

end LocalPlay.Command

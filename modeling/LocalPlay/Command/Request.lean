import LocalPlay.Command.Flags
import LocalPlay.Text.Natural

/-!
# What the command line asks for

The program has a few commands, and flags that go before the command and hold for all of them. A
command may have flags of its own behind it. Help is given as soon as it is asked for, even if other
arguments are wrong in their values.
-/

namespace LocalPlay.Command

inductive LogLevel where
  | off
  | error
  | warn
  | info
  | debug
  | trace
  deriving DecidableEq, Repr

namespace LogLevel

def all : List (String × LogLevel) :=
  [("off", off), ("error", error), ("warn", warn), ("info", info), ("debug", debug), ("trace", trace)]

/-- A level by its name in any case, or by its place among them. No name at all stands for errors.
-/
def parse? (text : String) : Option LogLevel :=
  match (Text.natural? UInt64.size text).bind (all[·]?) with
  | some (_, level) => some level
  | none => if text = "" then some error else all.lookup (text.map Char.toLower)

end LogLevel

/-- What holds for all commands. -/
structure Options where
  settingsPath : Option String := none
  logLevel : LogLevel := .info
  logPath : Option String := none
  deriving DecidableEq, Repr

inductive Action where
  /-- List the networks the relay reports. -/
  | scan (channel : UInt16)
  /-- Offer a fresh passphrase. -/
  | passphrase
  /-- Show the settings and where the relay is. -/
  | checkConfig
  deriving DecidableEq, Repr

/-- What there is help about. -/
inductive Topic where
  | program
  | scan
  | passphrase
  | checkConfig
  | help
  deriving DecidableEq, Repr

inductive Request where
  | help (topic : Topic)
  | run (options : Options) (action : Action)
  deriving DecidableEq, Repr

namespace Request

def settingsFlag : Flag := { long := "config", short := some 'c' }
def logLevelFlag : Flag := { long := "log-level" }
def logPathFlag : Flag := { long := "log-file" }
def channelFlag : Flag := { long := "channel" }

def readOptions (flags : Flags) : Except UsageError Options := do
  let settingsPath ← flags.value? settingsFlag some
  let logLevel ← flags.value? logLevelFlag LogLevel.parse?
  let logPath ← flags.value? logPathFlag some
  return { settingsPath, logLevel := logLevel.getD .info, logPath }

/-- A command's own arguments, of which only flags are allowed; nothing if they ask for help. -/
def commandFlags (known : List Flag) (arguments : List String) : Except UsageError (Option Flags) := do
  match ← readFlags known arguments with
  | .help => return none
  | .given flags _ [] => return some flags
  | .given _ _ (argument :: _) => throw (.unexpectedArgument argument)

/-- Topics by the names of the commands. -/
def topic? : String → Option Topic
  | "scan" => some .scan
  | "passphrase" => some .passphrase
  | "check-config" => some .checkConfig
  | "help" => some .help
  | _ => none

def parseHelp : List String → Except UsageError Topic
  | [] => .ok .program
  | [name] =>
    match topic? name with
    | some topic => .ok topic
    | none => .error (.unknownCommand name)
  | name :: next :: _ => .error (.unknownCommand (if (topic? name).isSome then next else name))

/-- A command other than help, or the topic if its arguments ask for help. -/
def parseCommand (name : String) (arguments : List String) : Except UsageError (Topic ⊕ Action) := do
  match name with
  | "scan" =>
    match ← commandFlags [channelFlag] arguments with
    | none => return .inl .scan
    | some flags =>
      let channel ← flags.value? channelFlag (Text.natural? UInt16.size)
      return .inr (.scan (UInt16.ofNat (channel.getD 1)))
  | "passphrase" =>
    let flags ← commandFlags [] arguments
    return if flags.isNone then .inl .passphrase else .inr .passphrase
  | "check-config" =>
    let flags ← commandFlags [] arguments
    return if flags.isNone then .inl .checkConfig else .inr .checkConfig
  | _ => throw (.unknownCommand name)

def parse (arguments : List String) : Except UsageError Request := do
  match ← readFlags [settingsFlag, logLevelFlag, logPathFlag] arguments with
  | .help => return .help .program
  | .given _ _ [] => throw .missingCommand
  | .given _ true (argument :: _) => throw (.unexpectedArgument argument)
  | .given _ false ("help" :: arguments) => return .help (← parseHelp arguments)
  | .given flags false (name :: arguments) =>
    match ← parseCommand name arguments with
    | .inl topic => return .help topic
    | .inr action => return .run (← readOptions flags) action

/-- Help needs no options. -/
def options : Request → Options
  | .help _ => {}
  | .run options _ => options

end Request

end LocalPlay.Command

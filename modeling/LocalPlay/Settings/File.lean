import LocalPlay.Json.Reader
import LocalPlay.Settings.Basic
import LocalPlay.Text.Utf8

/-!
# Settings files

A settings file is one JSON value, the record of the settings. All fields are optional, and unknown
ones are skipped. A passphrase that does not fit its field on the wire is refused as soon as it has
been read.
-/

namespace LocalPlay

open Json (Field Reader)
open Net (Endpoint IoError)

namespace Settings

def port : Reader UInt16 :=
  (Reader.natural UInt16.size).map UInt16.ofNat

def millis : Reader Nat :=
  Reader.natural UInt64.size

def endpoint : Reader Endpoint :=
  Reader.ofText fun text =>
    match Endpoint.parse? text with
    | some endpoint => .ok endpoint
    | none => .error .unfit

def fittingPassphrase : Reader String :=
  Reader.ofText fun text =>
    if Wire.passphraseFits text then .ok text else .error (.refused Wire.passphraseTooLong)

def relayServer : Reader RelayServer :=
  Json.Record.reader
    [.of "host" .text fun host server => { server with host },
      .of "port" port fun port server => { server with port }]
    {}

def timeoutsReader : Reader Timeouts :=
  Json.Record.reader
    [.of "inactive_ms" millis fun inactive timeouts => { timeouts with inactive },
      .of "failure_ms" millis fun failure timeouts => { timeouts with failure },
      .of "scan_ms" millis fun scan timeouts => { timeouts with scan },
      .of "auth_wait_ms" millis fun authWait timeouts => { timeouts with authWait }]
    {}

def reader : Reader Settings :=
  Json.Record.reader
    [.of "server" relayServer fun server settings => { settings with server },
      .of "passphrase" fittingPassphrase fun passphrase settings => { settings with passphrase },
      .of "disable_p2p" .flag fun disableP2p settings => { settings with disableP2p },
      .of "bind_address" endpoint fun bindAddress settings => { settings with bindAddress },
      .of "timeouts" timeoutsReader fun timeouts settings => { settings with timeouts }]
    {}

def ofText (text : List Char) : Except Json.Flaw Settings :=
  reader.whole text

/-- The settings in a file, given its contents or why it could not be read. A file that is not text
has invalid data. -/
def ofFile : Except IoError Bytes → Except SettingsError Settings
  | .error error => .error (.io error)
  | .ok bytes =>
    match Text.Utf8.strict? bytes with
    | none => .error (.io .invalidData)
    | some text =>
      match ofText text with
      | .ok settings => .ok settings
      | .error flaw => .error (.flawed flaw)

end Settings

end LocalPlay

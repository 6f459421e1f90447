import LocalPlay.Json.Basic
import LocalPlay.Net.AddressText
import LocalPlay.Net.IoError
import LocalPlay.Wire.Passphrase

/-!
# Settings

What a session has to be told: where the relay is, the passphrase, whether it may host proxies,
which address its socket binds to, and how long it waits for what. Times are in milliseconds.
-/

namespace LocalPlay

open Net Wire

structure RelayServer where
  host : String := "127.0.0.1"
  port : UInt16 := 30456
  deriving DecidableEq

structure Timeouts where
  /-- After this time without use the relay link is closed; also how long to wait for a removal. -/
  inactive : Nat := 6000
  /-- How long to wait for handshakes, confirmations and proxy addresses. -/
  failure : Nat := 4000
  scan : Nat := 1000
  /-- How long a joining peer may wait for its token. -/
  authWait : Nat := 1000
  deriving DecidableEq

structure Settings where
  server : RelayServer := {}
  passphrase : String := ""
  /-- Never host a proxy: all traffic goes through the relay. -/
  disableP2p : Bool := false
  bindAddress : Endpoint := { ip := .v4 Block.zero, port := 0 }
  timeouts : Timeouts := {}
  deriving DecidableEq

inductive SettingsError where
  | io (error : IoError)
  | flawed (flaw : Json.Flaw)
  | passphraseTooLong
  | unresolvable (host : String)
  deriving DecidableEq

namespace SettingsError

def message : SettingsError → String
  | io error => error.name
  | flawed .malformed => "syntax"
  | flawed .truncated => "eof"
  | flawed .unfit => "data"
  | flawed (.refused reason) => s!"data: {reason}"
  | passphraseTooLong => Wire.passphraseTooLong
  | unresolvable host => s!"Cannot resolve relay server {host}"

end SettingsError

namespace RelayServer

/-- The relay's endpoint. The host has to be an address; names are not looked up. -/
def resolve (server : RelayServer) : Except SettingsError Endpoint :=
  match Ip.parse? server.host with
  | some ip => .ok { ip, port := server.port }
  | none => .error (.unresolvable server.host)

end RelayServer

end LocalPlay

import LocalPlay.Wire.Error

/-!
# Kinds of packets

The byte after the acknowledgement flag of a header says what the payload is. Ids run from 0 to 23
and from 253 to 255; packets with any other id are skipped by whoever reassembles the stream.
-/

namespace LocalPlay.Wire

inductive Kind where
  /-- Handshake, both directions. -/
  | hello
  | passphrase
  /-- Host a public network. -/
  | createPublic
  /-- Host a private network. -/
  | createPrivate
  /-- Points a joiner to a proxy host, and is how the joiner authenticates there. -/
  | proxyOffer
  /-- Tells a proxy host whom to let in. -/
  | proxyToken
  /-- A virtual address came to or left a hosted proxy. -/
  | proxyState
  | syncNetwork
  | reject
  | rejectReply
  | scan
  | scanReply
  | scanEnd
  | connectPublic
  | connectPrivate
  | connected
  | disconnect
  /-- Assigns an address in the overlay. -/
  | overlayConfig
  | proxyConnect
  | proxyConnectReply
  | proxyData
  | proxyDisconnect
  | joinPolicy
  | advertiseData
  | ping
  | testPing
  | networkError
  deriving DecidableEq, Repr, Inhabited

namespace Kind

def all : List Kind :=
  [hello, passphrase, createPublic, createPrivate, proxyOffer, proxyToken, proxyState, syncNetwork,
    reject, rejectReply, scan, scanReply, scanEnd, connectPublic, connectPrivate, connected,
    disconnect, overlayConfig, proxyConnect, proxyConnectReply, proxyData, proxyDisconnect,
    joinPolicy, advertiseData, ping, testPing,
    networkError]

def id : Kind → UInt8
  | hello => 0
  | passphrase => 1
  | createPublic => 2
  | createPrivate => 3
  | proxyOffer => 4
  | proxyToken => 5
  | proxyState => 6
  | syncNetwork => 7
  | reject => 8
  | rejectReply => 9
  | scan => 10
  | scanReply => 11
  | scanEnd => 12
  | connectPublic => 13
  | connectPrivate => 14
  | connected => 15
  | disconnect => 16
  | overlayConfig => 17
  | proxyConnect => 18
  | proxyConnectReply => 19
  | proxyData => 20
  | proxyDisconnect => 21
  | joinPolicy => 22
  | advertiseData => 23
  | ping => 253
  | testPing => 254
  | networkError => 255

def ofId? (byte : UInt8) : Option Kind :=
  all.find? (·.id == byte)

def ofId (byte : UInt8) : Except WireError Kind :=
  match ofId? byte with
  | some kind => .ok kind
  | none => .error (.unknownKind byte)

/-- The name the protocol gives this kind. -/
def name : Kind → String
  | hello => "Initialize"
  | passphrase => "Passphrase"
  | createPublic => "CreateAccessPoint"
  | createPrivate => "CreateAccessPointPrivate"
  | proxyOffer => "ExternalProxy"
  | proxyToken => "ExternalProxyToken"
  | proxyState => "ExternalProxyState"
  | syncNetwork => "SyncNetwork"
  | reject => "Reject"
  | rejectReply => "RejectReply"
  | scan => "Scan"
  | scanReply => "ScanReply"
  | scanEnd => "ScanReplyEnd"
  | connectPublic => "Connect"
  | connectPrivate => "ConnectPrivate"
  | connected => "Connected"
  | disconnect => "Disconnect"
  | overlayConfig => "ProxyConfig"
  | proxyConnect => "ProxyConnect"
  | proxyConnectReply => "ProxyConnectReply"
  | proxyData => "ProxyData"
  | proxyDisconnect => "ProxyDisconnect"
  | joinPolicy => "SetAcceptPolicy"
  | advertiseData => "SetAdvertiseData"
  | ping => "Ping"
  | testPing => "TestPing"
  | networkError => "NetworkError"

def ofName? (name : String) : Option Kind :=
  all.find? (·.name == name)

end Kind

end LocalPlay.Wire

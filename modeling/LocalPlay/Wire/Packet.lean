import LocalPlay.Wire.Header
import LocalPlay.Wire.Message

/-!
# Packets

A packet is one of the twenty-seven kinds with its payload. Three kinds carry a tail of free length
behind their fixed part; advertise data is all tail, and two acknowledgements are empty. `decode`
accepts every payload that is at least as long as the fixed part of its kind; `encode` refuses only
what a receiver's `Header.check` would refuse for its size.
-/

namespace LocalPlay.Wire

inductive Packet where
  | hello (identity : Identity)
  | passphrase (field : Block passphraseSize)
  | createPublic (request : AccessPoint 0x94) (advertised : Bytes)
  | createPrivate (request : AccessPoint 0x114) (advertised : Bytes)
  | proxyOffer (offer : ProxyOffer)
  | proxyToken (token : ProxyToken)
  | proxyState (presence : ProxyPresence)
  | syncNetwork (info : NetworkInfo)
  | reject (removal : Removal)
  | rejectReply
  | scan (filter : ScanFilter)
  | scanReply (info : NetworkInfo)
  | scanEnd
  | connectPublic (request : PublicJoin)
  | connectPrivate (request : PrivateJoin)
  | connected (info : NetworkInfo)
  /-- Zero stands for the sender. -/
  | disconnect (ip : UInt32)
  | overlayConfig (config : OverlayConfig)
  | proxyConnect (addressing : Addressing)
  | proxyConnectReply (addressing : Addressing)
  | proxyData (header : DataHeader) (data : Bytes)
  | proxyDisconnect (closure : ProxyClosure)
  | joinPolicy (policy : JoinPolicy)
  | advertiseData (data : Bytes)
  | ping (ping : Ping)
  | testPing (ping : Ping)
  | networkError (error : NetworkError)
  deriving DecidableEq, Inhabited

namespace Packet

def kind : Packet → Kind
  | hello _ => .hello
  | passphrase _ => .passphrase
  | createPublic _ _ => .createPublic
  | createPrivate _ _ => .createPrivate
  | proxyOffer _ => .proxyOffer
  | proxyToken _ => .proxyToken
  | proxyState _ => .proxyState
  | syncNetwork _ => .syncNetwork
  | reject _ => .reject
  | rejectReply => .rejectReply
  | scan _ => .scan
  | scanReply _ => .scanReply
  | scanEnd => .scanEnd
  | connectPublic _ => .connectPublic
  | connectPrivate _ => .connectPrivate
  | connected _ => .connected
  | disconnect _ => .disconnect
  | overlayConfig _ => .overlayConfig
  | proxyConnect _ => .proxyConnect
  | proxyConnectReply _ => .proxyConnectReply
  | proxyData _ _ => .proxyData
  | proxyDisconnect _ => .proxyDisconnect
  | joinPolicy _ => .joinPolicy
  | advertiseData _ => .advertiseData
  | ping _ => .ping
  | testPing _ => .testPing
  | networkError _ => .networkError

/-- Reads the payload of a packet whose kind the header gave. -/
def decode (kind : Kind) (payload : Bytes) : Except WireError Packet :=
  match kind with
  | .hello => (Identity.layout.read payload).map hello
  | .passphrase => ((Layout.block passphraseSize).read payload).map passphrase
  | .createPublic =>
    ((AccessPoint.layout 0x94).readWithTail payload).map fun (request, tail) =>
      createPublic request tail
  | .createPrivate =>
    ((AccessPoint.layout 0x114).readWithTail payload).map fun (request, tail) =>
      createPrivate request tail
  | .proxyOffer => (ProxyOffer.layout.read payload).map proxyOffer
  | .proxyToken => (ProxyToken.layout.read payload).map proxyToken
  | .proxyState => (ProxyPresence.layout.read payload).map proxyState
  | .syncNetwork => ((Layout.block 0x480).read payload).map syncNetwork
  | .reject => (Removal.layout.read payload).map reject
  | .rejectReply => .ok rejectReply
  | .scan => ((Layout.block 0x60).read payload).map scan
  | .scanReply => ((Layout.block 0x480).read payload).map scanReply
  | .scanEnd => .ok scanEnd
  | .connectPublic => ((Layout.block 0x4FC).read payload).map connectPublic
  | .connectPrivate => ((Layout.block 0xBC).read payload).map connectPrivate
  | .connected => ((Layout.block 0x480).read payload).map connected
  | .disconnect => (Layout.u32.read payload).map disconnect
  | .overlayConfig => (OverlayConfig.layout.read payload).map overlayConfig
  | .proxyConnect => (Addressing.layout.read payload).map proxyConnect
  | .proxyConnectReply => (Addressing.layout.read payload).map proxyConnectReply
  | .proxyData =>
    (DataHeader.layout.readWithTail payload).map fun (header, data) => proxyData header data
  | .proxyDisconnect => (ProxyClosure.layout.read payload).map proxyDisconnect
  | .joinPolicy => (JoinPolicy.layout.read payload).map joinPolicy
  | .advertiseData => .ok (advertiseData payload)
  | .ping => (Ping.layout.read payload).map ping
  | .testPing => (Ping.layout.read payload).map testPing
  | .networkError => (NetworkError.layout.read payload).map networkError

def payload : Packet → Bytes
  | hello identity => Identity.layout.encode identity
  | passphrase field => field.bytes
  | createPublic request advertised => (AccessPoint.layout 0x94).encode request ++ advertised
  | createPrivate request advertised => (AccessPoint.layout 0x114).encode request ++ advertised
  | proxyOffer offer => ProxyOffer.layout.encode offer
  | proxyToken token => ProxyToken.layout.encode token
  | proxyState presence => ProxyPresence.layout.encode presence
  | syncNetwork info => info.bytes
  | reject removal => Removal.layout.encode removal
  | rejectReply => []
  | scan filter => filter.bytes
  | scanReply info => info.bytes
  | scanEnd => []
  | connectPublic request => request.bytes
  | connectPrivate request => request.bytes
  | connected info => info.bytes
  | disconnect ip => Layout.u32.encode ip
  | overlayConfig config => OverlayConfig.layout.encode config
  | proxyConnect addressing => Addressing.layout.encode addressing
  | proxyConnectReply addressing => Addressing.layout.encode addressing
  | proxyData header data => DataHeader.layout.encode header ++ data
  | proxyDisconnect closure => ProxyClosure.layout.encode closure
  | joinPolicy policy => JoinPolicy.layout.encode policy
  | advertiseData data => data
  | ping p => Ping.layout.encode p
  | testPing p => Ping.layout.encode p
  | networkError error => NetworkError.layout.encode error

/-- Header and payload, ready to be sent. -/
def encode (packet : Packet) : Except WireError Bytes :=
  let payload := packet.payload
  let length := payload.length
  if packetLimit ≤ headerSize + length then
    .error (.packetTooLarge (headerSize + length))
  else
    .ok (Header.layout.encode (.announce packet.kind (UInt32.ofNat length)) ++ payload)

end Packet

end LocalPlay.Wire

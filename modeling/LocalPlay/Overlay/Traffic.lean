import LocalPlay.Wire.Packet

/-!
# Proxied traffic

Four kinds of packets carry the traffic of games through an overlay, each with the addressing of its
sender and its destination. All other packets are between a node and the relay, or between a joiner
and its host.
-/

namespace LocalPlay.Overlay

open Wire

inductive Traffic where
  | connect (addressing : Addressing)
  | connectReply (addressing : Addressing)
  | data (header : DataHeader) (data : Bytes)
  | closure (closure : ProxyClosure)
  deriving DecidableEq, Inhabited

namespace Traffic

def ofPacket? : Packet → Option Traffic
  | .proxyConnect addressing => some (connect addressing)
  | .proxyConnectReply addressing => some (connectReply addressing)
  | .proxyData header bytes => some (data header bytes)
  | .proxyDisconnect c => some (closure c)
  | _ => none

def toPacket : Traffic → Packet
  | connect addressing => .proxyConnect addressing
  | connectReply addressing => .proxyConnectReply addressing
  | data header bytes => .proxyData header bytes
  | closure c => .proxyDisconnect c

def addressing : Traffic → Addressing
  | connect addressing => addressing
  | connectReply addressing => addressing
  | data header _ => header.addressing
  | closure c => c.addressing

/-- The same traffic from another source. -/
def withSource (source : UInt32) : Traffic → Traffic
  | connect addressing => connect { addressing with source }
  | connectReply addressing => connectReply { addressing with source }
  | data header bytes => data { header with addressing := { header.addressing with source } } bytes
  | closure c => closure { c with addressing := { c.addressing with source } }

/-- Puts the sender's address where the source is unset, and refuses a source that is someone
else's. -/
def stamp? (sender : UInt32) (traffic : Traffic) : Option Traffic :=
  if traffic.addressing.source = 0 then
    some (traffic.withSource sender)
  else if traffic.addressing.source = sender then
    some traffic
  else
    none

end Traffic

end LocalPlay.Overlay

import LocalPlay.Wire.Kind
import LocalPlay.Wire.Layout

/-!
# Packet headers

Fifteen bytes in front of every payload: a magic number, a sequence number and an acknowledgement
flag that nothing here interprets, the kind of packet, the protocol version and the size of the
payload. `Header.check` looks at the magic number, then the version, then the size, before anyone
waits for the payload it announces.
-/

namespace LocalPlay.Wire

/-- The letters `RLDN`, least significant byte first. -/
def magicNumber : UInt32 := 0x4E444C52

def protocolVersion : UInt8 := 1

def headerSize : Nat := 15

/-- Header and payload together stay below this. -/
def packetLimit : Nat := 131072

structure Header where
  magic : UInt32
  sequence : UInt32
  needsAck : Bool
  kindId : UInt8
  version : UInt8
  payloadSize : UInt32
  deriving DecidableEq, Repr

namespace Header

def layout : Layout Header :=
  (Layout.u32.pair <| Layout.u32.pair <| Layout.flag.pair <| Layout.u8.pair <|
    Layout.u8.pair Layout.u32).map
    (fun (magic, sequence, needsAck, kindId, version, payloadSize) =>
      { magic, sequence, needsAck, kindId, version, payloadSize })
    (fun h => (h.magic, h.sequence, h.needsAck, h.kindId, h.version, h.payloadSize))

/-- The header this program writes in front of a payload. -/
def announce (kind : Kind) (payloadSize : UInt32) : Header where
  magic := magicNumber
  sequence := 0
  needsAck := false
  kindId := kind.id
  version := protocolVersion
  payloadSize := payloadSize

/-- Size of the packet, header included. -/
def packetSize (h : Header) : Nat :=
  headerSize + h.payloadSize.toNat

def kind? (h : Header) : Option Kind :=
  Kind.ofId? h.kindId

/-- Refuses a header whose payload is not worth waiting for. -/
def check (h : Header) : Except WireError Unit :=
  if h.magic ≠ magicNumber then
    .error (.badMagic h.magic)
  else if h.version ≠ protocolVersion then
    .error (.versionMismatch h.version)
  else if packetLimit ≤ h.packetSize then
    .error (.packetTooLarge h.packetSize)
  else
    .ok ()

end Header

end LocalPlay.Wire

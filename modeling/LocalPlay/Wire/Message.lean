import LocalPlay.Wire.Value

/-!
# Messages

The payloads with a structure of their own, each with its layout. What the relay or the game
interprets and this program only carries (descriptions of networks, scan filters, access point
settings, connect requests) is a block of its exact size.
-/

namespace LocalPlay.Wire

/-- A hosted network as the relay describes it. -/
abbrev NetworkInfo := Block 0x480

/-- Narrows down what a scan reports. -/
abbrev ScanFilter := Block 0x60

/-- Settings of a public access point. -/
abbrev PublicSettings := Block 0x94

/-- Settings of a private access point. -/
abbrev PrivateSettings := Block 0x114

/-- Asks to join a public network. -/
abbrev PublicJoin := Block 0x4FC

/-- Asks to join a private network. -/
abbrev PrivateJoin := Block 0xBC

/-- Who a node is to the relay. All zero asks for a new identity. -/
structure Identity where
  id : Block 16
  mac : Block 6
  deriving DecidableEq, Inhabited

namespace Identity

def layout : Layout Identity :=
  ((Layout.block 16).pair (Layout.block 6)).map
    (fun (id, mac) => { id, mac })
    (fun m => (m.id, m.mac))

end Identity

/-- Size of the passphrase field. -/
def passphraseSize : Nat := 0x80

/-- The part of an access point request that is about the hosting node itself. The address and ports
stay zero unless it hosts a proxy. -/
structure HostProfile where
  gameVersion : Block 16
  privateIp : Block 16
  family : AddressFamily
  externalPort : UInt16
  internalPort : UInt16
  deriving DecidableEq, Inhabited

namespace HostProfile

def layout : Layout HostProfile :=
  ((Layout.block 16).pair <| (Layout.block 16).pair <| AddressFamily.layout.pair <|
      Layout.u16.pair Layout.u16).map
    (fun (gameVersion, privateIp, family, externalPort, internalPort) =>
      { gameVersion, privateIp, family, externalPort, internalPort })
    (fun m => (m.gameVersion, m.privateIp, m.family, m.externalPort, m.internalPort))

end HostProfile

/-- Asks the relay to host a network with `n` bytes of settings. -/
structure AccessPoint (n : Nat) where
  settings : Block n
  profile : HostProfile
  deriving DecidableEq, Inhabited

namespace AccessPoint

def layout (n : Nat) : Layout (AccessPoint n) :=
  ((Layout.block n).pair HostProfile.layout).map
    (fun (settings, profile) => { settings, profile })
    (fun m => (m.settings, m.profile))

end AccessPoint

/-- Where a proxy host is and the token it will recognise. -/
structure ProxyOffer where
  ip : Block 16
  family : AddressFamily
  port : UInt16
  token : Block 16
  deriving DecidableEq, Inhabited

namespace ProxyOffer

def layout : Layout ProxyOffer :=
  ((Layout.block 16).pair <| AddressFamily.layout.pair <| Layout.u16.pair (Layout.block 16)).map
    (fun (ip, family, port, token) => { ip, family, port, token })
    (fun m => (m.ip, m.family, m.port, m.token))

end ProxyOffer

/-- Lets the bearer of `token` in under a virtual address. -/
structure ProxyToken where
  virtualIp : UInt32
  token : Block 16
  physicalIp : Block 16
  family : AddressFamily
  deriving DecidableEq, Inhabited

namespace ProxyToken

def layout : Layout ProxyToken :=
  (Layout.u32.pair <| (Layout.block 16).pair <| (Layout.block 16).pair AddressFamily.layout).map
    (fun (virtualIp, token, physicalIp, family) => { virtualIp, token, physicalIp, family })
    (fun m => (m.virtualIp, m.token, m.physicalIp, m.family))

/-- An all zero physical address lets the bearer come from anywhere. -/
def isWildcard (t : ProxyToken) : Bool :=
  t.physicalIp == Block.zero

end ProxyToken

/-- A virtual address came to or left a hosted proxy. -/
structure ProxyPresence where
  ip : UInt32
  present : Bool
  deriving DecidableEq, Inhabited

namespace ProxyPresence

def layout : Layout ProxyPresence :=
  (Layout.u32.pair <| Layout.flag.pair (Layout.padding 3)).map
    (fun (ip, present, _) => { ip, present })
    (fun m => (m.ip, m.present, ()))

end ProxyPresence

/-- An address in the overlay with the overlay's subnet mask. -/
structure OverlayConfig where
  ip : UInt32
  mask : UInt32
  deriving DecidableEq, Repr, Inhabited

namespace OverlayConfig

def layout : Layout OverlayConfig :=
  (Layout.u32.pair Layout.u32).map
    (fun (ip, mask) => { ip, mask })
    (fun m => (m.ip, m.mask))

/-- The address of everyone in the overlay: all host bits set. -/
def broadcast (c : OverlayConfig) : UInt32 :=
  c.ip ||| ~~~c.mask

end OverlayConfig

/-- Who sends proxied traffic to whom. The source is zero while the sending socket is bound to no
address. -/
structure Addressing where
  source : UInt32
  sourcePort : UInt16
  dest : UInt32
  destPort : UInt16
  protocol : Int32
  deriving DecidableEq, Inhabited

namespace Addressing

def layout : Layout Addressing :=
  (Layout.u32.pair <| Layout.u16.pair <| Layout.u32.pair <| Layout.u16.pair Layout.i32).map
    (fun (source, sourcePort, dest, destPort, protocol) =>
      { source, sourcePort, dest, destPort, protocol })
    (fun m => (m.source, m.sourcePort, m.dest, m.destPort, m.protocol))

end Addressing

/-- Stands in front of proxied data. The length is what the sender declared; the data is the rest of
the payload whatever it says. -/
structure DataHeader where
  addressing : Addressing
  declaredLength : UInt32
  deriving DecidableEq, Inhabited

namespace DataHeader

def layout : Layout DataHeader :=
  (Addressing.layout.pair Layout.u32).map
    (fun (addressing, declaredLength) => { addressing, declaredLength })
    (fun m => (m.addressing, m.declaredLength))

end DataHeader

/-- Closes a proxied connection. -/
structure ProxyClosure where
  addressing : Addressing
  reason : Int32
  deriving DecidableEq, Inhabited

namespace ProxyClosure

def layout : Layout ProxyClosure :=
  (Addressing.layout.pair Layout.i32).map
    (fun (addressing, reason) => { addressing, reason })
    (fun m => (m.addressing, m.reason))

end ProxyClosure

/-- Removes a node from a hosted network. -/
structure Removal where
  node : UInt32
  reason : LeaveReason
  deriving DecidableEq, Repr, Inhabited

namespace Removal

def layout : Layout Removal :=
  (Layout.u32.pair LeaveReason.layout).map
    (fun (node, reason) => { node, reason })
    (fun m => (m.node, m.reason))

end Removal

/-- A keepalive. Requester zero means the relay asked and waits for an echo. -/
structure Ping where
  requester : UInt8
  id : UInt8
  deriving DecidableEq, Repr, Inhabited

namespace Ping

def layout : Layout Ping :=
  (Layout.u8.pair Layout.u8).map
    (fun (requester, id) => { requester, id })
    (fun m => (m.requester, m.id))

end Ping

end LocalPlay.Wire

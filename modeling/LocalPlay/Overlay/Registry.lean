import LocalPlay.Net.Ip
import LocalPlay.Overlay.Traffic

/-!
# The registry of a proxy host

The relay issues tokens; a peer that presents a matching one takes a seat under the token's virtual
address. Tokens are matched oldest first and used up by the seat they grant. The overlay's subnet is
fixed whenever someone sits down at an empty table. An endpoint has at most one seat: sitting down
again gives up the seat before.

Seats are numbered in the order in which they are granted, so that a seat is told apart from its
successor at the same endpoint.
-/

namespace LocalPlay.Overlay

open Net Wire

/-- The mask of every overlay. -/
def subnetMask : UInt32 := 0xFFFF0000

/-- Games broadcast to 192.168.0.255 whatever the overlay is. -/
def broadcastSentinel : UInt32 := 0xC0A800FF

structure Seat where
  id : Nat
  endpoint : Endpoint
  virtualIp : UInt32
  deriving DecidableEq

/-- The token lets the bearer of `presented` in from `endpoint`. -/
def admits (presented : Block 16) (endpoint : Endpoint) (token : ProxyToken) : Bool :=
  let (ip, family) := endpoint.ip.toField
  token.token == presented && (token.isWildcard || (token.family == family && token.physicalIp == ip))

/-- The address a token assigns. -/
def assigned (token : ProxyToken) : OverlayConfig :=
  ⟨token.virtualIp, subnetMask⟩

structure Registry where
  seats : List Seat := []
  tokens : List ProxyToken := []
  overlay : Option OverlayConfig := none
  deriving DecidableEq

namespace Registry

/-- What a claim changed. -/
structure Claim where
  token : ProxyToken
  seat : Seat
  /-- The seat the endpoint had before. -/
  replaced : Option Seat
  registry : Registry
  deriving DecidableEq

/-- Takes the oldest token that lets the applicant in and grants it seat number `id`. -/
def claim? (r : Registry) (id : Nat) (endpoint : Endpoint) (presented : Block 16) : Option Claim :=
  (r.tokens.find? (admits presented endpoint)).map fun token =>
    let seat : Seat := ⟨id, endpoint, token.virtualIp⟩
    { token
      seat
      replaced := r.seats.find? (·.endpoint == endpoint)
      registry :=
        { tokens := r.tokens.eraseP (admits presented endpoint)
          overlay := if r.seats.isEmpty then some (assigned token) else r.overlay
          seats := r.seats.eraseP (·.endpoint == endpoint) ++ [seat] } }

def seatAt? (r : Registry) (endpoint : Endpoint) : Option Seat :=
  r.seats.find? (·.endpoint == endpoint)

def seat? (r : Registry) (id : Nat) : Option Seat :=
  r.seats.find? (·.id == id)

def removeSeat (r : Registry) (id : Nat) : Registry :=
  { r with seats := r.seats.eraseP (·.id == id) }

/-- Who traffic to a virtual address goes to: everyone in the order they sat down for the broadcast
address, else the oldest seat with this address. -/
def destinations (r : Registry) (dest : UInt32) : List Endpoint :=
  let broadcast := r.overlay.map (·.broadcast)
  let dest := if dest = broadcastSentinel then broadcast.getD 0 else dest
  if some dest = broadcast then
    r.seats.map (·.endpoint)
  else
    ((r.seats.find? (·.virtualIp == dest)).map (·.endpoint)).toList

end Registry

end LocalPlay.Overlay

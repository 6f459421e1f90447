import LocalPlay.Bytes
import LocalPlay.Wire.Value

/-!
# IP addresses and endpoints

An address is four or sixteen bytes. An IPv4 address may also come mapped into IPv6; its canonical
form is the plain IPv4 address. Messages carry addresses in a 16 byte field next to a family: an
IPv4 address fills the first four bytes, and mapped addresses travel in canonical form.
-/

namespace LocalPlay.Net

open Wire (AddressFamily)

inductive Ip where
  | v4 (octets : Block 4)
  | v6 (octets : Block 16)
  deriving DecidableEq, Inhabited

namespace Ip

/-- What an IPv4 address is put behind to become an IPv6 address. -/
def mappedStart : Bytes := [0, 0, 0, 0, 0, 0, 0, 0, 0, 0, 0xFF, 0xFF]

/-- The IPv4 address a mapped IPv6 address stands for. -/
def mapped? : Ip → Option (Block 4)
  | v4 _ => none
  | v6 octets =>
    if octets.bytes.take 12 = mappedStart then some (Block.ofBytes (octets.bytes.drop 12)) else none

/-- Turns a mapped address into the IPv4 address it stands for. -/
def canonical (ip : Ip) : Ip :=
  match ip.mapped? with
  | some octets => v4 octets
  | none => ip

def isV4 : Ip → Bool
  | v4 _ => true
  | v6 _ => false

/-- All of `127.0.0.0/8`, and `::1`. A mapped loopback address is not one itself. -/
def isLoopback : Ip → Bool
  | v4 octets => octets.bytes.head? == some 127
  | v6 octets => octets.bytes == List.replicate 15 0 ++ [1]

/-- The 16 byte field of a message that holds this address, and its family. -/
def toField (ip : Ip) : Block 16 × AddressFamily :=
  match ip.canonical with
  | v4 octets => (Block.ofBytes octets.bytes, .v4)
  | v6 octets => (octets, .v6)

/-- The address in a 16 byte field of a message. -/
def ofField? (field : Block 16) : AddressFamily → Option Ip
  | .unspecified => none
  | .v4 => some (v4 (Block.ofBytes field.bytes))
  | .v6 => some (v6 field)

end Ip

/-- Where datagrams come from and go to. The scope tells links apart that share an IPv6 address; it
is zero for most addresses and always for IPv4. -/
structure Endpoint where
  ip : Ip
  port : UInt16
  scope : UInt32 := 0
  deriving DecidableEq, Inhabited

end LocalPlay.Net

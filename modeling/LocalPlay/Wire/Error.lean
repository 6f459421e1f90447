import LocalPlay.Text.Hex

/-!
# What can be wrong with received bytes

Each of these makes the stream of bytes it was met in unusable: whoever reassembles the stream drops
what it holds.
-/

namespace LocalPlay.Wire

inductive WireError where
  | badMagic (magic : UInt32)
  | versionMismatch (version : UInt8)
  /-- Header and payload together would reach the size limit. -/
  | packetTooLarge (size : Nat)
  | tooShort (expected actual : Nat)
  | unknownKind (id : UInt8)
  deriving DecidableEq, Repr

namespace WireError

def message : WireError → String
  | badMagic magic => "Invalid magic number in received packet: 0x" ++ Text.hexDigits 8 magic.toNat
  | versionMismatch version => s!"Protocol version mismatch, received {version}"
  | packetTooLarge size => s!"Max packet size exceeded: {size} bytes"
  | tooShort expected actual =>
    s!"Bytes is of invalid length, expected at least {expected}, got {actual}"
  | unknownKind id => s!"Unknown packet type {id}"

end WireError

end LocalPlay.Wire

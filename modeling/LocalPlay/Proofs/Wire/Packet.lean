import LocalPlay.Proofs.Wire.Layout
import LocalPlay.Wire.Packet

/-!
# Packets read back

Every message is lawful by the way its layout is put together, and so is the header. With that the
payload a packet is encoded to decodes, under the packet's own kind, to the packet itself, and the
header written in front of it is one that a receiver accepts. The encoder and the receiver draw the
line at the same size: `encode_eq_error_iff` on one side, `check_eq_ok_iff` on the other.
-/

namespace LocalPlay.Wire

open Layout

/-! ### The layouts of the messages -/

theorem Header.lawful_layout : Header.layout.Lawful :=
  (lawful_u32.pair <| lawful_u32.pair <| lawful_flag.pair <| lawful_u8.pair <|
    lawful_u8.pair lawful_u32).map fun _ => rfl

theorem Header.size_layout : Header.layout.size = headerSize := by decide

theorem AddressFamily.lawful_layout : AddressFamily.layout.Lawful :=
  lawful_choice (fun family => by cases family <;> decide) fun family => by cases family <;> rfl

theorem NetworkError.lawful_layout : NetworkError.layout.Lawful :=
  lawful_choice (fun error => by cases error <;> decide) fun error => by cases error <;> rfl

theorem LeaveReason.lawful_layout : LeaveReason.layout.Lawful :=
  lawful_choice (fun reason => by cases reason <;> decide) fun reason => by cases reason <;> rfl

theorem JoinPolicy.lawful_layout : JoinPolicy.layout.Lawful :=
  lawful_choice (fun policy => by cases policy <;> decide) fun policy => by cases policy <;> rfl

theorem Identity.lawful_layout : Identity.layout.Lawful :=
  ((lawful_block 16).pair (lawful_block 6)).map fun _ => rfl

theorem HostProfile.lawful_layout : HostProfile.layout.Lawful :=
  ((lawful_block 16).pair <| (lawful_block 16).pair <| AddressFamily.lawful_layout.pair <|
    lawful_u16.pair lawful_u16).map fun _ => rfl

theorem AccessPoint.lawful_layout (n : Nat) : (AccessPoint.layout n).Lawful :=
  ((lawful_block n).pair HostProfile.lawful_layout).map fun _ => rfl

theorem ProxyOffer.lawful_layout : ProxyOffer.layout.Lawful :=
  ((lawful_block 16).pair <| AddressFamily.lawful_layout.pair <|
    lawful_u16.pair (lawful_block 16)).map fun _ => rfl

theorem ProxyToken.lawful_layout : ProxyToken.layout.Lawful :=
  (lawful_u32.pair <| (lawful_block 16).pair <|
    (lawful_block 16).pair AddressFamily.lawful_layout).map fun _ => rfl

theorem ProxyPresence.lawful_layout : ProxyPresence.layout.Lawful :=
  (lawful_u32.pair <| lawful_flag.pair (lawful_padding 3)).map fun _ => rfl

theorem OverlayConfig.lawful_layout : OverlayConfig.layout.Lawful :=
  (lawful_u32.pair lawful_u32).map fun _ => rfl

theorem Addressing.lawful_layout : Addressing.layout.Lawful :=
  (lawful_u32.pair <| lawful_u16.pair <| lawful_u32.pair <|
    lawful_u16.pair lawful_i32).map fun _ => rfl

theorem DataHeader.lawful_layout : DataHeader.layout.Lawful :=
  (Addressing.lawful_layout.pair lawful_u32).map fun _ => rfl

theorem ProxyClosure.lawful_layout : ProxyClosure.layout.Lawful :=
  (Addressing.lawful_layout.pair lawful_i32).map fun _ => rfl

theorem Removal.lawful_layout : Removal.layout.Lawful :=
  (lawful_u32.pair LeaveReason.lawful_layout).map fun _ => rfl

theorem Ping.lawful_layout : Ping.layout.Lawful :=
  (lawful_u8.pair lawful_u8).map fun _ => rfl

/-! ### Kinds -/

@[simp] theorem Kind.ofId?_id (kind : Kind) : Kind.ofId? kind.id = some kind := by
  cases kind <;> decide

namespace Packet

theorem decode_payload (packet : Packet) : Packet.decode packet.kind packet.payload = .ok packet := by
  have hblock {n : Nat} (value : Block n) : (block n).read value.bytes = .ok value :=
    (lawful_block n).read_encode value
  cases packet <;>
    simp only [decode, kind, payload, Except.map, hblock, Identity.lawful_layout.read_encode,
      (AccessPoint.lawful_layout _).readWithTail_encode_append,
      ProxyOffer.lawful_layout.read_encode, ProxyToken.lawful_layout.read_encode,
      ProxyPresence.lawful_layout.read_encode, Removal.lawful_layout.read_encode,
      lawful_u32.read_encode, OverlayConfig.lawful_layout.read_encode,
      Addressing.lawful_layout.read_encode, DataHeader.lawful_layout.readWithTail_encode_append,
      ProxyClosure.lawful_layout.read_encode, JoinPolicy.lawful_layout.read_encode,
      Ping.lawful_layout.read_encode, NetworkError.lawful_layout.read_encode]

/-- The header in front of this packet's payload. -/
def header (packet : Packet) : Header :=
  .announce packet.kind (UInt32.ofNat packet.payload.length)

theorem encode_eq_ok_iff {packet : Packet} {bytes : Bytes} :
    packet.encode = .ok bytes ↔ headerSize + packet.payload.length < packetLimit ∧
      bytes = Header.layout.encode packet.header ++ packet.payload := by
  rw [encode]
  split
  · rename_i hlarge
    exact ⟨nofun, fun h => absurd h.1 (Nat.not_lt.mpr hlarge)⟩
  · rename_i hsmall
    exact ⟨fun h => ⟨Nat.not_le.mp hsmall, (Except.ok.inj h).symm⟩, fun h => congrArg _ h.2.symm⟩

theorem encode_eq_error_iff {packet : Packet} {error : WireError} :
    packet.encode = .error error ↔ packetLimit ≤ headerSize + packet.payload.length ∧
      error = .packetTooLarge (headerSize + packet.payload.length) := by
  rw [encode]
  split
  · rename_i hlarge
    exact ⟨fun h => ⟨hlarge, (Except.error.inj h).symm⟩, fun h => congrArg _ h.2.symm⟩
  · rename_i hsmall
    exact ⟨nofun, fun h => absurd h.1 hsmall⟩

end Packet

namespace Header

theorem check_eq_ok_iff (h : Header) : h.check = .ok () ↔
    h.magic = magicNumber ∧ h.version = protocolVersion ∧ h.packetSize < packetLimit := by
  rw [check]
  by_cases hmagic : h.magic = magicNumber
  · by_cases hversion : h.version = protocolVersion
    · by_cases hlarge : packetLimit ≤ h.packetSize
      · rw [if_neg (not_not_intro hmagic), if_neg (not_not_intro hversion), if_pos hlarge]
        exact ⟨nofun, fun h => absurd h.2.2 (Nat.not_lt.mpr hlarge)⟩
      · rw [if_neg (not_not_intro hmagic), if_neg (not_not_intro hversion), if_neg hlarge]
        exact ⟨fun _ => ⟨hmagic, hversion, Nat.not_le.mp hlarge⟩, fun _ => rfl⟩
    · rw [if_neg (not_not_intro hmagic), if_pos hversion]
      exact ⟨nofun, fun h => absurd h.2.1 hversion⟩
  · rw [if_pos hmagic]
    exact ⟨nofun, fun h => absurd h.1 hmagic⟩

end Header

namespace Packet

variable {packet : Packet} (hsmall : headerSize + packet.payload.length < packetLimit)
include hsmall

theorem payloadSize_header : packet.header.payloadSize.toNat = packet.payload.length := by
  show (UInt32.ofNat packet.payload.length).toNat = packet.payload.length
  rw [UInt32.toNat_ofNat']
  apply Nat.mod_eq_of_lt
  simp only [packetLimit, headerSize] at hsmall
  omega

theorem packetSize_header : packet.header.packetSize = headerSize + packet.payload.length := by
  rw [Header.packetSize, payloadSize_header hsmall]

theorem check_header : packet.header.check = .ok () := by
  apply packet.header.check_eq_ok_iff.mpr
  exact ⟨rfl, rfl, (packetSize_header hsmall).symm ▸ hsmall⟩

end Packet

end LocalPlay.Wire

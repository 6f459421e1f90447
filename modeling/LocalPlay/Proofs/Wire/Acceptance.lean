import LocalPlay.Proofs.Wire.Resending

/-!
# Which payloads are accepted

A payload is refused for nothing but its length: each kind has a fixed part of a known size, and
every payload at least as long as that reads as a packet of its kind. Numbers nobody knows and
surplus bytes are no errors, they are read as something that can be written, so what comes out of a
payload is written in no more bytes and reads back as itself. With the size check of the header this
makes every packet off a stream one that can be sent on.
-/

namespace LocalPlay.Wire

variable {α : Type}

/-- The size of the part that every payload of this kind has, in the numbers of the protocol. -/
def Kind.fixedSize : Kind → Nat
  | hello => 0x16
  | passphrase => 0x80
  | createPublic => 0xBC
  | createPrivate => 0x13C
  | proxyOffer => 0x26
  | proxyToken => 0x28
  | proxyState => 8
  | syncNetwork | scanReply | connected => 0x480
  | reject => 8
  | rejectReply | scanEnd | advertiseData => 0
  | scan => 0x60
  | connectPublic => 0x4FC
  | connectPrivate => 0xBC
  | disconnect => 4
  | overlayConfig => 8
  | proxyConnect | proxyConnectReply => 0x10
  | proxyData | proxyDisconnect => 0x14
  | joinPolicy => 1
  | ping | testPing => 2
  | networkError => 4

/-- Payloads of this kind have a fixed part of `size` bytes, and whatever holds it is a packet. -/
structure Kind.Accepts (kind : Kind) (size : Nat) : Prop where
  of_short : ∀ {payload : Bytes}, payload.length < size →
    Packet.decode kind payload = .error (.tooShort size payload.length)
  of_long : ∀ {payload : Bytes}, size ≤ payload.length →
    ∃ packet, Packet.decode kind payload = .ok packet ∧ packet.kind = kind

/-! ### Kind by kind -/

theorem Layout.read_of_short {layout : Layout α} {bytes : Bytes} (h : bytes.length < layout.size) :
    layout.read bytes = .error (.tooShort layout.size bytes.length) := by
  rw [read, if_pos h]

theorem Layout.read_of_long {layout : Layout α} {bytes : Bytes}
    (h : layout.size ≤ bytes.length) : layout.read bytes = .ok (layout.decode bytes) := by
  rw [read, if_neg (Nat.not_lt.mpr h)]

namespace Kind

/-- Surplus bytes behind the fixed part are ignored. -/
theorem accepts_of_read {kind : Kind} (layout : Layout α) (build : α → Packet)
    (hdecode : ∀ payload, Packet.decode kind payload = (layout.read payload).map build)
    (hkind : ∀ value, (build value).kind = kind) : kind.Accepts layout.size where
  of_short hshort := by
    rw [hdecode, Layout.read_of_short hshort]
    rfl
  of_long {payload} hlong := by
    refine ⟨build (layout.decode payload), ?_, hkind _⟩
    rw [hdecode, Layout.read_of_long hlong]
    rfl

/-- What follows the fixed part belongs to the packet. -/
theorem accepts_of_readWithTail {kind : Kind} (layout : Layout α) (build : α × Bytes → Packet)
    (hdecode : ∀ payload, Packet.decode kind payload = (layout.readWithTail payload).map build)
    (hkind : ∀ value, (build value).kind = kind) : kind.Accepts layout.size where
  of_short hshort := by
    rw [hdecode, Layout.readWithTail, Layout.read_of_short hshort]
    rfl
  of_long {payload} hlong := by
    refine ⟨build (layout.decode payload, payload.drop layout.size), ?_, hkind _⟩
    rw [hdecode, Layout.readWithTail, Layout.read_of_long hlong]
    rfl

/-- A kind without a fixed part accepts whatever comes. -/
theorem accepts_of_all {kind : Kind} (build : Bytes → Packet)
    (hdecode : ∀ payload, Packet.decode kind payload = .ok (build payload))
    (hkind : ∀ payload, (build payload).kind = kind) : kind.Accepts 0 where
  of_short hshort := absurd hshort (Nat.not_lt_zero _)
  of_long {payload} _ := ⟨build payload, hdecode payload, hkind payload⟩

theorem accepts (kind : Kind) : kind.Accepts kind.fixedSize := by
  cases kind with
  | hello => exact accepts_of_read Identity.layout .hello (fun _ => rfl) fun _ => rfl
  | passphrase => exact accepts_of_read (.block _) .passphrase (fun _ => rfl) fun _ => rfl
  | createPublic =>
    exact accepts_of_readWithTail (AccessPoint.layout _)
      (fun read => .createPublic read.1 read.2) (fun _ => rfl) fun _ => rfl
  | createPrivate =>
    exact accepts_of_readWithTail (AccessPoint.layout _)
      (fun read => .createPrivate read.1 read.2) (fun _ => rfl) fun _ => rfl
  | proxyOffer => exact accepts_of_read ProxyOffer.layout .proxyOffer (fun _ => rfl) fun _ => rfl
  | proxyToken => exact accepts_of_read ProxyToken.layout .proxyToken (fun _ => rfl) fun _ => rfl
  | proxyState => exact accepts_of_read ProxyPresence.layout .proxyState (fun _ => rfl) fun _ => rfl
  | syncNetwork => exact accepts_of_read (.block _) .syncNetwork (fun _ => rfl) fun _ => rfl
  | reject => exact accepts_of_read Removal.layout .reject (fun _ => rfl) fun _ => rfl
  | rejectReply => exact accepts_of_all (fun _ => .rejectReply) (fun _ => rfl) fun _ => rfl
  | scan => exact accepts_of_read (.block _) .scan (fun _ => rfl) fun _ => rfl
  | scanReply => exact accepts_of_read (.block _) .scanReply (fun _ => rfl) fun _ => rfl
  | scanEnd => exact accepts_of_all (fun _ => .scanEnd) (fun _ => rfl) fun _ => rfl
  | connectPublic => exact accepts_of_read (.block _) .connectPublic (fun _ => rfl) fun _ => rfl
  | connectPrivate => exact accepts_of_read (.block _) .connectPrivate (fun _ => rfl) fun _ => rfl
  | connected => exact accepts_of_read (.block _) .connected (fun _ => rfl) fun _ => rfl
  | disconnect => exact accepts_of_read .u32 .disconnect (fun _ => rfl) fun _ => rfl
  | overlayConfig =>
    exact accepts_of_read OverlayConfig.layout .overlayConfig (fun _ => rfl) fun _ => rfl
  | proxyConnect =>
    exact accepts_of_read Addressing.layout .proxyConnect (fun _ => rfl) fun _ => rfl
  | proxyConnectReply =>
    exact accepts_of_read Addressing.layout .proxyConnectReply (fun _ => rfl) fun _ => rfl
  | proxyData =>
    exact accepts_of_readWithTail DataHeader.layout (fun read => .proxyData read.1 read.2)
      (fun _ => rfl) fun _ => rfl
  | proxyDisconnect =>
    exact accepts_of_read ProxyClosure.layout .proxyDisconnect (fun _ => rfl) fun _ => rfl
  | joinPolicy => exact accepts_of_read JoinPolicy.layout .joinPolicy (fun _ => rfl) fun _ => rfl
  | advertiseData => exact accepts_of_all .advertiseData (fun _ => rfl) fun _ => rfl
  | ping => exact accepts_of_read Ping.layout .ping (fun _ => rfl) fun _ => rfl
  | testPing => exact accepts_of_read Ping.layout .testPing (fun _ => rfl) fun _ => rfl
  | networkError =>
    exact accepts_of_read NetworkError.layout .networkError (fun _ => rfl) fun _ => rfl

end Kind

namespace Packet

variable {kind : Kind} {payload : Bytes}

theorem decode_eq_ok_iff :
    (∃ packet, decode kind payload = .ok packet) ↔ kind.fixedSize ≤ payload.length := by
  constructor
  · intro ⟨packet, hpacket⟩
    apply Nat.not_lt.mp
    intro hshort
    rw [kind.accepts.of_short hshort] at hpacket
    cases hpacket
  · intro hlong
    obtain ⟨packet, hpacket, -⟩ := kind.accepts.of_long hlong
    exact ⟨packet, hpacket⟩

theorem decode_eq_error_iff {error : WireError} : decode kind payload = .error error ↔
    payload.length < kind.fixedSize ∧ error = .tooShort kind.fixedSize payload.length := by
  by_cases hlong : kind.fixedSize ≤ payload.length
  · obtain ⟨packet, hpacket, -⟩ := kind.accepts.of_long hlong
    rw [hpacket]
    constructor
    · exact nofun
    · intro ⟨hshort, _⟩
      omega
  · have hshort : payload.length < kind.fixedSize := Nat.not_le.mp hlong
    rw [kind.accepts.of_short hshort]
    simp only [hshort, true_and, Except.error.injEq]
    exact eq_comm

theorem kind_of_decode {packet : Packet} (h : decode kind payload = .ok packet) :
    packet.kind = kind := by
  have hlong : kind.fixedSize ≤ payload.length := decode_eq_ok_iff.mp ⟨packet, h⟩
  obtain ⟨other, hother, hkind⟩ := kind.accepts.of_long hlong
  rw [h] at hother
  cases hother
  exact hkind

end Packet

/-! ### Streams -/

namespace Reassembly

/-- Every frame a reassembler hands out is below the size limit. -/
theorem small_of_mem_feed {r : Reassembly} (h : r.Reachable) {piece : Bytes} {frame : Frame}
    (hframe : frame ∈ (r.feed piece).frames) :
    headerSize + frame.packet.payload.length < packetLimit := by
  rw [feed_eq h.waits] at hframe
  exact small_of_mem_frames frame hframe

end Reassembly

namespace Packet

/-- A payload is accepted exactly if it is as long as the fixed part of its kind, and otherwise the
error names that size and the length found. What is accepted is a packet of the kind asked for, is
written in no more bytes than were read, and these read as the same packet. So whatever a
reassembler hands out can be encoded. -/
theorem decode_normalises :
    (∀ (kind : Kind) (payload : Bytes),
      ((∃ packet, decode kind payload = .ok packet) ↔ kind.fixedSize ≤ payload.length) ∧
      (∀ error, decode kind payload = .error error ↔
        payload.length < kind.fixedSize ∧
          error = .tooShort kind.fixedSize payload.length) ∧
      ∀ packet, decode kind payload = .ok packet →
        packet.kind = kind ∧ packet.payload.length ≤ payload.length ∧
          decode kind packet.payload = .ok packet) ∧
    ∀ r : Reassembly, r.Reachable → ∀ (piece : Bytes), ∀ frame ∈ (r.feed piece).frames,
      ∃ bytes, frame.packet.encode = .ok bytes := by
  refine ⟨fun kind payload => ⟨decode_eq_ok_iff, fun _ => decode_eq_error_iff, ?_⟩, ?_⟩
  · intro packet hpacket
    have hkind : packet.kind = kind := kind_of_decode hpacket
    refine ⟨hkind, length_payload_le hpacket, ?_⟩
    rw [← hkind]
    exact decode_payload packet
  · intro r hr piece frame hframe
    have hsmall := Reassembly.small_of_mem_feed hr hframe
    exact ⟨_, encode_eq_ok_iff.mpr ⟨hsmall, rfl⟩⟩

/-- A join policy of an unknown number with two surplus bytes, a ping one byte short, and a stream
that delivers such a policy behind a header with the acknowledgement flag set. -/
theorem decode_normalises_policy :
    (decode .joinPolicy [9, 1, 2] = .ok (.joinPolicy .acceptAll) ∧
      (Packet.joinPolicy .acceptAll).payload.length ≤ 3 ∧
      decode .joinPolicy (Packet.joinPolicy .acceptAll).payload = .ok (.joinPolicy .acceptAll)) ∧
    decode .ping [7] = .error (.tooShort 2 1) ∧
    ∃ frame ∈ (Reassembly.empty.feed
        [82, 76, 68, 78, 0, 0, 0, 0, 7, 22, 1, 3, 0, 0, 0, 9, 1, 2]).frames,
      ∃ bytes, frame.packet.encode = .ok bytes := by
  obtain ⟨hdecode, hstream⟩ := decode_normalises
  have hpolicy : decode .joinPolicy [9, 1, 2] = .ok (.joinPolicy .acceptAll) := rfl
  obtain ⟨-, -, hback⟩ := hdecode .joinPolicy [9, 1, 2]
  obtain ⟨-, herror, -⟩ := hdecode .ping [7]
  refine ⟨⟨hpolicy, (hback _ hpolicy).2⟩, (herror _).mpr ⟨by decide, by decide⟩, ?_⟩
  have hframe : (⟨⟨0x4E444C52, 0, true, 22, 1, 3⟩, .joinPolicy .acceptAll⟩ : Frame) ∈
      (Reassembly.empty.feed
        [82, 76, 68, 78, 0, 0, 0, 0, 7, 22, 1, 3, 0, 0, 0, 9, 1, 2]).frames := by
    decide
  exact ⟨_, hframe, hstream _ .new _ _ hframe⟩

end Packet

end LocalPlay.Wire

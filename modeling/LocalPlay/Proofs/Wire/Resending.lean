import LocalPlay.Proofs.Wire.RoundTrip

/-!
# What was read can be sent again

Decoding looks at the fixed part of a payload and, for some kinds, at the tail. What it leaves out
are surplus bytes, so what it gives is written in no more bytes than it was read from,
`length_payload_le`. A receiver lets only payloads pass that keep a packet below the size limit.
Whoever reads a packet off a stream can therefore send it on, and who receives it reads the same.
-/

namespace LocalPlay.Wire

variable {α : Type}

/-! ### Payloads -/

theorem Layout.size_le_of_read {layout : Layout α} {bytes : Bytes} {value : α}
    (h : layout.read bytes = .ok value) : layout.size ≤ bytes.length := by
  rw [read] at h
  split at h
  · cases h
  · rename_i hlong
    exact Nat.not_lt.mp hlong

/-- The fixed part of a message is all there is. -/
theorem length_payload_of_read {layout : Layout α} (hlawful : layout.Lawful) {build : α → Packet}
    (hbuild : ∀ value, (build value).payload = layout.encode value) {payload : Bytes}
    {packet : Packet} (h : (layout.read payload).map build = .ok packet) :
    packet.payload.length ≤ payload.length := by
  cases hread : layout.read payload with
  | error error =>
    rw [hread] at h
    exact nomatch h
  | ok value =>
    rw [hread] at h
    obtain rfl : build value = packet := Except.ok.inj h
    rw [hbuild, hlawful.length_encode]
    exact Layout.size_le_of_read hread

/-- A tail of any length follows the fixed part. -/
theorem length_payload_of_readWithTail {layout : Layout α} (hlawful : layout.Lawful)
    {build : α × Bytes → Packet}
    (hbuild : ∀ value, (build value).payload = layout.encode value.1 ++ value.2) {payload : Bytes}
    {packet : Packet} (h : (layout.readWithTail payload).map build = .ok packet) :
    packet.payload.length ≤ payload.length := by
  rw [Layout.readWithTail] at h
  cases hread : layout.read payload with
  | error error =>
    rw [hread] at h
    cases h
  | ok value =>
    rw [hread] at h
    obtain rfl : build (value, payload.drop layout.size) = packet := Except.ok.inj h
    have hsize := Layout.size_le_of_read hread
    rw [hbuild, List.length_append, hlawful.length_encode, List.length_drop]
    omega

/-- What was decoded is written in no more bytes than it was decoded from. -/
theorem length_payload_le {kind : Kind} {payload : Bytes} {packet : Packet}
    (h : Packet.decode kind payload = .ok packet) : packet.payload.length ≤ payload.length := by
  cases kind with
  | hello => exact length_payload_of_read Identity.lawful_layout (fun _ => rfl) h
  | passphrase => exact length_payload_of_read (Layout.lawful_block _) (fun _ => rfl) h
  | createPublic =>
    exact length_payload_of_readWithTail (AccessPoint.lawful_layout _) (fun _ => rfl) h
  | createPrivate =>
    exact length_payload_of_readWithTail (AccessPoint.lawful_layout _) (fun _ => rfl) h
  | proxyOffer => exact length_payload_of_read ProxyOffer.lawful_layout (fun _ => rfl) h
  | proxyToken => exact length_payload_of_read ProxyToken.lawful_layout (fun _ => rfl) h
  | proxyState => exact length_payload_of_read ProxyPresence.lawful_layout (fun _ => rfl) h
  | syncNetwork => exact length_payload_of_read (Layout.lawful_block _) (fun _ => rfl) h
  | reject => exact length_payload_of_read Removal.lawful_layout (fun _ => rfl) h
  | rejectReply =>
    obtain rfl := Except.ok.inj h
    exact Nat.zero_le _
  | scan => exact length_payload_of_read (Layout.lawful_block _) (fun _ => rfl) h
  | scanReply => exact length_payload_of_read (Layout.lawful_block _) (fun _ => rfl) h
  | scanEnd =>
    obtain rfl := Except.ok.inj h
    exact Nat.zero_le _
  | connectPublic => exact length_payload_of_read (Layout.lawful_block _) (fun _ => rfl) h
  | connectPrivate => exact length_payload_of_read (Layout.lawful_block _) (fun _ => rfl) h
  | connected => exact length_payload_of_read (Layout.lawful_block _) (fun _ => rfl) h
  | disconnect => exact length_payload_of_read Layout.lawful_u32 (fun _ => rfl) h
  | overlayConfig => exact length_payload_of_read OverlayConfig.lawful_layout (fun _ => rfl) h
  | proxyConnect => exact length_payload_of_read Addressing.lawful_layout (fun _ => rfl) h
  | proxyConnectReply => exact length_payload_of_read Addressing.lawful_layout (fun _ => rfl) h
  | proxyData => exact length_payload_of_readWithTail DataHeader.lawful_layout (fun _ => rfl) h
  | proxyDisconnect => exact length_payload_of_read ProxyClosure.lawful_layout (fun _ => rfl) h
  | joinPolicy => exact length_payload_of_read JoinPolicy.lawful_layout (fun _ => rfl) h
  | advertiseData =>
    obtain rfl := Except.ok.inj h
    exact Nat.le_refl _
  | ping => exact length_payload_of_read Ping.lawful_layout (fun _ => rfl) h
  | testPing => exact length_payload_of_read Ping.lawful_layout (fun _ => rfl) h
  | networkError => exact length_payload_of_read NetworkError.lawful_layout (fun _ => rfl) h

/-! ### Streams -/

/-- A frame is read from a payload that its header announced. -/
theorem small_of_first {bytes : Bytes} {frame : Frame} {size : Nat}
    (h : first bytes = .packet (some frame) size) :
    headerSize + frame.packet.payload.length < packetLimit := by
  obtain ⟨hcheck, rfl, hsize⟩ := header_of_first h
  obtain ⟨-, -, hsmall⟩ := (Header.check_eq_ok_iff _).mp hcheck
  have hheader : ¬ bytes.length < headerSize := by
    have := headerSize_le_packetSize (Header.layout.decode bytes)
    omega
  simp only [first, if_neg hheader, hcheck, if_neg (Nat.not_lt.mpr hsize)] at h
  generalize hpayload : (bytes.take _).drop headerSize = payload at h
  have hlength : headerSize + payload.length = (Header.layout.decode bytes).packetSize := by
    have := headerSize_le_packetSize (Header.layout.decode bytes)
    rw [← hpayload, List.length_drop, List.length_take]
    omega
  rw [Frame.ofPayload?] at h
  cases hkind : (Header.layout.decode bytes).kind? with
  | none => simp [hkind] at h
  | some kind =>
    cases hdecode : Packet.decode kind payload with
    | error error => simp [hkind, hdecode, Except.map] at h
    | ok packet =>
      simp only [hkind, hdecode, Except.map, First.packet.injEq, Option.some.injEq] at h
      obtain ⟨rfl, -⟩ := h
      have hle := length_payload_le hdecode
      show headerSize + packet.payload.length < packetLimit
      omega

/-- Every packet that is read off a stream is small enough to be sent. -/
theorem small_of_mem_frames {bytes : Bytes} :
    ∀ frame ∈ (readStream bytes).frames,
      headerSize + frame.packet.payload.length < packetLimit := by
  induction bytes using stream_induction with
  | incomplete bytes h =>
    rw [readStream_of_incomplete h]
    exact fun _ => nofun
  | broken bytes error h =>
    rw [readStream_eq, h]
    exact fun _ => nofun
  | packet bytes frame? size h ih =>
    rw [readStream_eq, h]
    intro frame hmem
    rcases List.mem_append.mp hmem with hfirst | hrest
    · obtain rfl := Option.mem_toList.mp hfirst
      exact small_of_first h
    · exact ih frame hrest

/-- A packet below the limit is encoded, and a new reassembler that is fed the encoding finds the
packet and nothing else, however the encoding is cut. -/
theorem feedAll_of_small {packet : Packet}
    (hsmall : headerSize + packet.payload.length < packetLimit) :
    ∃ bytes, packet.encode = .ok bytes ∧ ∀ pieces : List Bytes, pieces.flatten = bytes →
      Reassembly.empty.feedAll pieces = ⟨[packet.frame], none, .empty⟩ := by
  refine ⟨_, Packet.encode_eq_ok_iff.mpr ⟨hsmall, rfl⟩, fun pieces hpieces => ?_⟩
  have hencode : packet.encode = .ok pieces.flatten :=
    Packet.encode_eq_ok_iff.mpr ⟨hsmall, hpieces⟩
  have hread : readStream (Reassembly.empty.held.toList ++ pieces.flatten) =
      ⟨[packet.frame], none, []⟩ := by
    have hone : [packet].mapM Packet.encode = .ok [pieces.flatten] := by
      rw [List.mapM_cons, hencode]
      rfl
    have hall := readStream_encodings hone
    rw [List.flatten_singleton] at hall
    exact hall
  rw [Reassembly.feedAll_eq Reassembly.waits_empty, hread]
  rfl

end LocalPlay.Wire

import LocalPlay.Proofs.Wire.Reassembly

/-!
# Packets through a stream

What one side encodes the other side reads back. An encoding starts a stream with its own packet,
whatever follows it, so a reading of encodings one after the other takes them off one by one; and
how the stream is cut on its way is no matter, by `Reassembly.feedAll_eq`.
-/

namespace LocalPlay.Wire

/-- The frame a packet arrives as. -/
def Packet.frame (packet : Packet) : Frame := ⟨packet.header, packet⟩

theorem first_encode {packet : Packet} {bytes : Bytes} (h : packet.encode = .ok bytes)
    (tail : Bytes) : first (bytes ++ tail) = .packet (some packet.frame) bytes.length := by
  obtain ⟨hsmall, rfl⟩ := Packet.encode_eq_ok_iff.mp h
  have hheader : (Header.layout.encode packet.header).length = headerSize :=
    Header.lawful_layout.length_encode packet.header
  have hsize := Packet.packetSize_header hsmall
  have hlength : (Header.layout.encode packet.header ++ packet.payload).length =
      packet.header.packetSize := by
    rw [List.length_append, hheader, hsize]
  have hlong : ¬ (Header.layout.encode packet.header ++ packet.payload ++ tail).length <
      packet.header.packetSize := by
    rw [List.length_append, hlength]
    omega
  have hlong' : ¬ (Header.layout.encode packet.header ++ packet.payload ++ tail).length <
      headerSize := by
    have := headerSize_le_packetSize packet.header
    omega
  have hdecode : Header.layout.decode
      (Header.layout.encode packet.header ++ packet.payload ++ tail) = packet.header := by
    rw [List.append_assoc, Header.lawful_layout.decode_encode_append]
  have hpayload : ((Header.layout.encode packet.header ++ packet.payload ++ tail).take
      packet.header.packetSize).drop headerSize = packet.payload := by
    rw [List.take_left' hlength, List.drop_left' hheader]
  have hkind : packet.header.kind? = some packet.kind := Kind.ofId?_id packet.kind
  rw [first, if_neg hlong', hdecode]
  simp only [Packet.check_header hsmall, if_neg hlong, hpayload, Frame.ofPayload?, hkind,
    Packet.decode_payload, hlength, Except.map, Packet.frame]

theorem readStream_encodings {packets : List Packet} {encodings : List Bytes}
    (h : packets.mapM Packet.encode = .ok encodings) :
    readStream encodings.flatten = ⟨packets.map Packet.frame, none, []⟩ := by
  induction packets generalizing encodings with
  | nil =>
    obtain rfl : [] = encodings := Except.ok.inj h
    rfl
  | cons packet packets ih =>
    rw [List.mapM_cons] at h
    cases hfirst : packet.encode with
    | error error =>
      rw [hfirst] at h
      exact nomatch h
    | ok bytes =>
      cases hrest : packets.mapM Packet.encode with
      | error error =>
        rw [hfirst, hrest] at h
        exact nomatch h
      | ok rest =>
        rw [hfirst, hrest] at h
        obtain rfl : bytes :: rest = encodings := Except.ok.inj h
        rw [List.flatten_cons, readStream_eq, first_encode hfirst]
        dsimp only
        rw [List.drop_left, ih hrest]
        rfl

/-- A packet that can be encoded arrives as it was sent, however its bytes are cut. -/
theorem Packet.exists_arrival {packet : Packet}
    (hsmall : headerSize + packet.payload.length < packetLimit) :
    ∃ bytes, packet.encode = .ok bytes ∧ ∀ pieces : List Bytes, pieces.flatten = bytes →
      (Reassembly.empty.feedAll pieces).frames.map (·.packet) = [packet] := by
  have hencode := Packet.encode_eq_ok_iff.mpr ⟨hsmall, rfl⟩
  refine ⟨_, hencode, fun pieces hpieces => ?_⟩
  have hencodings : [packet].mapM Packet.encode = .ok [pieces.flatten] := by
    rw [List.mapM_cons, hpieces, hencode]
    rfl
  have hread := readStream_encodings hencodings
  rw [List.flatten_singleton] at hread
  rw [Reassembly.feedAll_eq Reassembly.waits_empty]
  show (readStream ([] ++ pieces.flatten)).frames.map (·.packet) = [packet]
  rw [List.nil_append, hread]
  rfl

/-- Packets that can be encoded arrive as they were sent, in order and with nothing left over,
however their stream is cut; and a packet can be encoded exactly if the receiver lets its size
pass. -/
theorem feedAll_encodings :
    (∀ (packets : List Packet) (encodings pieces : List Bytes),
      packets.mapM Packet.encode = .ok encodings → pieces.flatten = encodings.flatten →
      let fed := Reassembly.empty.feedAll pieces
      fed.frames.map (·.packet) = packets ∧
        (∀ frame ∈ fed.frames, frame.header.sequence = 0 ∧ frame.header.needsAck = false) ∧
        fed.error = none ∧ fed.next.pending = 0) ∧
    ∀ packet : Packet,
      (∀ error, packet.encode = .error error ↔
        131072 ≤ 15 + packet.payload.length ∧
          error = .packetTooLarge (15 + packet.payload.length)) ∧
      (∀ bytes, packet.encode = .ok bytes → (Header.layout.decode bytes).check = .ok ()) ∧
      ∀ error (header : Header), packet.encode = .error error →
        header.payloadSize.toNat = packet.payload.length → header.check ≠ .ok () := by
  refine ⟨fun packets encodings pieces hencode hpieces => ?_, fun packet => ⟨?_, ?_, ?_⟩⟩
  · have hread : readStream (Reassembly.empty.held.toList ++ encodings.flatten) =
        ⟨packets.map Packet.frame, none, []⟩ := readStream_encodings hencode
    rw [Reassembly.feedAll_eq Reassembly.waits_empty, hpieces, hread]
    refine ⟨?_, ?_, rfl, rfl⟩
    · show (packets.map Packet.frame).map (·.packet) = packets
      rw [List.map_map]
      exact List.map_id packets
    · intro frame hframe
      obtain ⟨packet, _, rfl⟩ := List.mem_map.mp hframe
      exact ⟨rfl, rfl⟩
  · exact fun error => Packet.encode_eq_error_iff
  · intro bytes hencode
    obtain ⟨hsmall, rfl⟩ := Packet.encode_eq_ok_iff.mp hencode
    rw [Header.lawful_layout.decode_encode_append]
    exact Packet.check_header hsmall
  · intro error header hencode hpayload hcheck
    obtain ⟨hlarge, _⟩ := Packet.encode_eq_error_iff.mp hencode
    obtain ⟨_, _, hsmall⟩ := header.check_eq_ok_iff.mp hcheck
    rw [Header.packetSize, hpayload] at hsmall
    omega

/-- Three packets cut in the middle of headers and payloads, and advertise data one byte too long. -/
theorem feedAll_encodings_of_three :
    (let packets : List Packet := [.ping ⟨7, 9⟩, .scanEnd, .advertiseData [1, 2, 3]]
      let fed := Reassembly.empty.feedAll [[82, 76, 68, 78, 0, 0, 0, 0, 0, 253, 1, 2],
        [0, 0, 0, 7, 9, 82, 76, 68, 78, 0, 0, 0, 0, 0, 12, 1, 0, 0, 0, 0, 82],
        [76, 68, 78, 0, 0, 0, 0, 0, 23, 1, 3, 0, 0, 0, 1, 2], [3]]
      fed.frames.map (·.packet) = packets ∧ fed.error = none ∧ fed.next.pending = 0) ∧
    (∃ bytes, Packet.scanEnd.encode = .ok bytes ∧ (Header.layout.decode bytes).check = .ok ()) ∧
    let packet := Packet.advertiseData (List.replicate 131057 0)
    packet.encode = .error (.packetTooLarge 131072) ∧
      (Header.announce packet.kind 131057).check ≠ .ok () := by
  obtain ⟨harrive, hencode⟩ := feedAll_encodings
  obtain ⟨hpackets, _, herror, hpending⟩ :=
    harrive [.ping ⟨7, 9⟩, .scanEnd, .advertiseData [1, 2, 3]]
      [[82, 76, 68, 78, 0, 0, 0, 0, 0, 253, 1, 2, 0, 0, 0, 7, 9],
        [82, 76, 68, 78, 0, 0, 0, 0, 0, 12, 1, 0, 0, 0, 0],
        [82, 76, 68, 78, 0, 0, 0, 0, 0, 23, 1, 3, 0, 0, 0, 1, 2, 3]]
      [[82, 76, 68, 78, 0, 0, 0, 0, 0, 253, 1, 2],
        [0, 0, 0, 7, 9, 82, 76, 68, 78, 0, 0, 0, 0, 0, 12, 1, 0, 0, 0, 0, 82],
        [76, 68, 78, 0, 0, 0, 0, 0, 23, 1, 3, 0, 0, 0, 1, 2], [3]] (by rfl) (by rfl)
  refine ⟨⟨hpackets, herror, hpending⟩, ⟨_, rfl, (hencode .scanEnd).2.1 _ rfl⟩, ?_⟩
  have hlength : (Packet.advertiseData (List.replicate 131057 0)).payload.length = 131057 :=
    List.length_replicate
  obtain ⟨hlarge, _, hrefused⟩ := hencode (.advertiseData (List.replicate 131057 0))
  have herror := (hlarge (.packetTooLarge 131072)).mpr (by rw [hlength]; decide)
  exact ⟨herror, hrefused _ (.announce .advertiseData 131057) herror (by rw [hlength]; rfl)⟩

end LocalPlay.Wire

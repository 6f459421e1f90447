import LocalPlay.Proofs.Wire.Reassembly
import LocalPlay.Session.Receive

/-!
# What a sender's datagrams say

A session keeps a stream for every sender that is in the middle of a packet. It may have begun
anywhere in what came from that sender: a stream ends with an error or between two packets, all
streams are dropped with the link, and the datagrams of seated peers never reach one. What can be
said of a stream is that it is one reading of some datagrams of its sender and of nobody else's, in
the order in which they came. That is `Stopped`, and it makes every packet that comes out of the
stream `Delivered` by the sender.
-/

namespace LocalPlay.Session

open Net Wire

/-- The packet is complete in the stream that some of the datagrams are together. -/
def Delivered (datagrams : List Bytes) (packet : Packet) : Prop :=
  ∃ pieces : List Bytes, pieces.Sublist datagrams ∧
    ∃ frame ∈ (readStream pieces.flatten).frames, frame.packet = packet

/-- Some of the datagrams, read as a stream, end where this stream stopped. -/
def Stopped (datagrams : List Bytes) (stream : Reassembly) : Prop :=
  ∃ pieces : List Bytes, pieces.Sublist datagrams ∧ (readStream pieces.flatten).error = none ∧
    (readStream pieces.flatten).pending = stream.held.toList

theorem Delivered.mono {datagrams more : List Bytes} {packet : Packet}
    (h : Delivered datagrams packet) (hmore : datagrams.Sublist more) : Delivered more packet := by
  obtain ⟨pieces, hpieces, hframe⟩ := h
  exact ⟨pieces, hpieces.trans hmore, hframe⟩

theorem Stopped.mono {datagrams more : List Bytes} {stream : Reassembly}
    (h : Stopped datagrams stream) (hmore : datagrams.Sublist more) : Stopped more stream := by
  obtain ⟨pieces, hpieces, hread⟩ := h
  exact ⟨pieces, hpieces.trans hmore, hread⟩

theorem stopped_empty (datagrams : List Bytes) : Stopped datagrams .empty :=
  ⟨[], List.nil_sublist _, rfl, rfl⟩

theorem Stopped.waits {datagrams : List Bytes} {stream : Reassembly}
    (h : Stopped datagrams stream) : stream.Waits := by
  obtain ⟨pieces, _, _, hpending⟩ := h
  rw [Reassembly.Waits, ← hpending]
  exact first_pending _

/-- One more datagram is read on from where the stream stopped. -/
theorem Stopped.feed {datagrams : List Bytes} {stream : Reassembly}
    (h : Stopped datagrams stream) (datagram : Bytes) :
    (∀ frame ∈ (stream.feed datagram).frames,
        Delivered (datagrams ++ [datagram]) frame.packet) ∧
      ((stream.feed datagram).error = none →
        Stopped (datagrams ++ [datagram]) (stream.feed datagram).next) := by
  rw [Reassembly.feed_eq h.waits]
  obtain ⟨pieces, hpieces, herror, hpending⟩ := h
  have hmore : (pieces ++ [datagram]).Sublist (datagrams ++ [datagram]) :=
    hpieces.append (.refl _)
  have hread : readStream (pieces ++ [datagram]).flatten =
      { readStream (stream.held.toList ++ datagram) with
        frames := (readStream pieces.flatten).frames ++
          (readStream (stream.held.toList ++ datagram)).frames } := by
    rw [List.flatten_append, List.flatten_singleton, readStream_append, Reading.goOn, herror,
      hpending]
  refine ⟨fun frame hmem => ⟨_, hmore, frame, ?_, rfl⟩, fun hfed => ⟨_, hmore, ?_, ?_⟩⟩
  · rw [hread]
    exact List.mem_append_right _ hmem
  · rw [hread]
    exact hfed
  · rw [hread]
    rfl

/-- The datagram that comes in is the last of its sender's. -/
theorem reassemble_spec {received : Endpoint → List Bytes} {streams : List (Endpoint × Reassembly)}
    (hstreams : ∀ entry ∈ streams, Stopped (received entry.1) entry.2) (sender : Endpoint)
    (datagram : Bytes) :
    (∀ packet ∈ (reassemble streams sender datagram).1,
        Delivered (received sender ++ [datagram]) packet) ∧
      ∀ entry ∈ (reassemble streams sender datagram).2,
        entry ∈ streams ∨ entry.1 = sender ∧ Stopped (received sender ++ [datagram]) entry.2 := by
  have hstream : Stopped (received sender) ((streams.lookup sender).getD .empty) := by
    cases hlookup : streams.lookup sender with
    | none => exact stopped_empty _
    | some stream =>
      obtain ⟨before, after, rfl, _⟩ := List.lookup_eq_some_iff.mp hlookup
      exact hstreams (sender, stream) (List.mem_append_right _ List.mem_cons_self)
  obtain ⟨hframes, hnext⟩ := hstream.feed datagram
  rw [reassemble]
  refine ⟨fun packet hmem => ?_, fun entry hmem => ?_⟩
  · obtain ⟨frame, hframe, rfl⟩ := List.mem_map.mp hmem
    exact hframes frame hframe
  · dsimp only at hmem
    split at hmem
    · exact .inl ((List.mem_filter.mp hmem).1)
    · rename_i hgoes
      rcases List.mem_cons.mp hmem with rfl | hmem
      · refine .inr ⟨rfl, hnext ?_⟩
        rw [not_or, Bool.not_eq_true, Option.isSome_eq_false_iff, Option.isNone_iff_eq_none] at hgoes
        exact hgoes.1
      · exact .inl ((List.mem_filter.mp hmem).1)

end LocalPlay.Session

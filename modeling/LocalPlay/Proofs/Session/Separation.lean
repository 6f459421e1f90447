import LocalPlay.Proofs.Session.Streams
import Mathlib.Data.List.Induction

/-!
# Senders have streams of their own

All datagrams a session receives go through one list of streams, in which an entry comes and goes
with every packet that is cut, completed or broken. A sender cannot tell: what its datagrams
complete, one by one, is what a reassembler completes that is fed them and nobody else's, and that
goes on after its own errors. The list is only a way not to keep the reassemblers that hold nothing,
so the invariant is that for every sender it has the entry `entryOf`, one that holds something or
none at all.
-/

namespace LocalPlay.Session

open Net Wire

/-! ### A sender alone -/

/-- A reassembler for the datagrams of one sender, and what each of them completed. -/
structure Solo where
  stream : Reassembly := .empty
  completed : List (List Packet) := []

namespace Solo

/-- An error does not end it: the next datagram finds what the error left. -/
def take (solo : Solo) (datagram : Bytes) : Solo :=
  let fed := solo.stream.feed datagram
  { stream := fed.next, completed := solo.completed ++ [fed.frames.map (·.packet)] }

def ofDatagrams (datagrams : List Bytes) : Solo :=
  datagrams.foldl take {}

theorem ofDatagrams_concat (datagrams : List Bytes) (datagram : Bytes) :
    ofDatagrams (datagrams ++ [datagram]) = (ofDatagrams datagrams).take datagram := by
  rw [ofDatagrams, List.foldl_append]
  rfl

theorem waits_ofDatagrams (datagrams : List Bytes) : (ofDatagrams datagrams).stream.Waits := by
  induction datagrams using List.reverseRecOn with
  | nil => exact Reassembly.waits_empty
  | append_singleton datagrams datagram ih =>
    rw [ofDatagrams_concat]
    exact Reassembly.waits_feed ih datagram

end Solo

/-! ### All senders together -/

/-- The streams a session keeps, and what each datagram completed, with its sender. -/
structure Intake where
  streams : List (Endpoint × Reassembly) := []
  completed : List (Endpoint × List Packet) := []

namespace Intake

def take (intake : Intake) (arrival : Endpoint × Bytes) : Intake :=
  let (packets, streams) := reassemble intake.streams arrival.1 arrival.2
  { streams, completed := intake.completed ++ [(arrival.1, packets)] }

def ofArrivals (arrivals : List (Endpoint × Bytes)) : Intake :=
  arrivals.foldl take {}

theorem ofArrivals_concat (arrivals : List (Endpoint × Bytes)) (arrival : Endpoint × Bytes) :
    ofArrivals (arrivals ++ [arrival]) = (ofArrivals arrivals).take arrival := by
  rw [ofArrivals, List.foldl_append]
  rfl

end Intake

/-- What came from one sender, or was made of it. -/
def ofSender {α : Type} (sender : Endpoint) (entries : List (Endpoint × α)) : List α :=
  (entries.filter (·.1 = sender)).map (·.2)

@[simp] theorem ofSender_nil {α : Type} (sender : Endpoint) :
    ofSender sender ([] : List (Endpoint × α)) = [] :=
  rfl

theorem ofSender_concat_self {α : Type} (sender : Endpoint) (entries : List (Endpoint × α))
    (value : α) :
    ofSender sender (entries ++ [(sender, value)]) = ofSender sender entries ++ [value] := by
  simp [ofSender]

theorem ofSender_concat_of_ne {α : Type} {sender other : Endpoint} (h : other ≠ sender)
    (entries : List (Endpoint × α)) (value : α) :
    ofSender sender (entries ++ [(other, value)]) = ofSender sender entries := by
  simp [ofSender, h]

/-! ### The entry of a sender -/

/-- What the list of streams has for a sender whose reassembler this is. -/
def entryOf (stream : Reassembly) : List Reassembly :=
  if stream.pending = 0 then [] else [stream]

theorem eq_empty_of_pending {stream : Reassembly} (h : stream.pending = 0) : stream = .empty := by
  obtain ⟨held⟩ := stream
  have hheld : held = #[] := Array.size_eq_zero_iff.mp h
  rw [hheld, Reassembly.empty]

/-- After an error nothing is held. -/
theorem next_of_error {stream : Reassembly} (h : stream.Waits) {datagram : Bytes}
    (herror : (stream.feed datagram).error.isSome) : (stream.feed datagram).next.pending = 0 := by
  rw [Reassembly.feed_eq h] at herror ⊢
  obtain ⟨error, herror⟩ := Option.isSome_iff_exists.mp herror
  rw [Reassembly.Fed.ofReading, pending_of_error herror]
  rfl

theorem lookup_eq_head? (streams : List (Endpoint × Reassembly)) (sender : Endpoint) :
    streams.lookup sender = (ofSender sender streams).head? := by
  induction streams with
  | nil => rfl
  | cons entry streams ih =>
    obtain ⟨other, stream⟩ := entry
    by_cases h : other = sender
    · simp [ofSender, h]
    · have hne : (sender == other) = false := beq_eq_false_iff_ne.mpr (Ne.symm h)
      rw [List.lookup_cons, hne, ih]
      simp [ofSender, h]

/-- The stream a datagram is fed to is the sender's own, also where it is not kept. -/
theorem lookup_of_entryOf {streams : List (Endpoint × Reassembly)} {sender : Endpoint}
    {stream : Reassembly} (h : ofSender sender streams = entryOf stream) :
    (streams.lookup sender).getD .empty = stream := by
  rw [lookup_eq_head?, h, entryOf]
  split
  · rename_i hpending
    exact (eq_empty_of_pending hpending).symm
  · rfl

/-! ### One datagram -/

/-- A datagram does to its sender's stream what it would do to a reassembler of the sender's own. -/
theorem reassemble_sender {streams : List (Endpoint × Reassembly)} {sender : Endpoint}
    {stream : Reassembly} (hwaits : stream.Waits) (h : ofSender sender streams = entryOf stream)
    (datagram : Bytes) :
    (reassemble streams sender datagram).1 = (stream.feed datagram).frames.map (·.packet) ∧
      ofSender sender (reassemble streams sender datagram).2 =
        entryOf (stream.feed datagram).next := by
  have hothers : ofSender sender (streams.filter (·.1 ≠ sender)) = [] := by
    simp [ofSender, List.filter_filter]
  rw [reassemble, lookup_of_entryOf h]
  refine ⟨rfl, ?_⟩
  by_cases hpending : (stream.feed datagram).next.pending = 0
  · rw [if_pos (.inr hpending), entryOf, if_pos hpending, hothers]
  · have herror : ¬ (stream.feed datagram).error.isSome := fun herror =>
      hpending (next_of_error hwaits herror)
    rw [if_neg (by simp [herror, hpending]), entryOf, if_neg hpending, ← hothers]
    simp [ofSender]

/-- It does nothing to the others'. -/
theorem reassemble_other {sender other : Endpoint} (h : sender ≠ other)
    (streams : List (Endpoint × Reassembly)) (datagram : Bytes) :
    ofSender other (reassemble streams sender datagram).2 = ofSender other streams := by
  have hothers : ofSender other (streams.filter (·.1 ≠ sender)) = ofSender other streams := by
    rw [ofSender, List.filter_filter, ofSender]
    congr 1
    apply List.filter_congr
    intro entry _
    by_cases hentry : entry.1 = other
    · simp [hentry, Ne.symm h]
    · simp [hentry]
  rw [reassemble]
  dsimp only
  split
  · exact hothers
  · rw [← hothers]
    simp [ofSender, h]

/-! ### Any number of datagrams -/

/-- However the datagrams of any number of senders are mixed, cut and corrupted: what those of one
sender complete, one by one, is what they complete when they are fed to a reassembler of their own.
The streams that are kept have an entry for the sender, and then only one, exactly while that
reassembler holds a part of a packet, and the entry is that reassembler. -/
theorem senders_apart (arrivals : List (Endpoint × Bytes)) (sender : Endpoint) :
    let intake := Intake.ofArrivals arrivals
    let solo := Solo.ofDatagrams (ofSender sender arrivals)
    ofSender sender intake.completed = solo.completed ∧
      ofSender sender intake.streams =
        if solo.stream.pending = 0 then [] else [solo.stream] := by
  induction arrivals using List.reverseRecOn with
  | nil => exact ⟨rfl, rfl⟩
  | append_singleton arrivals arrival ih =>
    obtain ⟨other, datagram⟩ := arrival
    obtain ⟨hcompleted, hstreams⟩ := ih
    rw [Intake.ofArrivals_concat, Intake.take]
    by_cases h : other = sender
    · subst h
      obtain ⟨hpackets, hnext⟩ :=
        reassemble_sender (Solo.waits_ofDatagrams _) hstreams datagram
      rw [ofSender_concat_self, Solo.ofDatagrams_concat, Solo.take]
      refine ⟨?_, hnext⟩
      dsimp only
      rw [ofSender_concat_self, hcompleted, hpackets]
    · rw [ofSender_concat_of_ne h]
      refine ⟨?_, ?_⟩
      · dsimp only
        rw [ofSender_concat_of_ne h]
        exact hcompleted
      · exact (reassemble_other h _ datagram).trans hstreams

end LocalPlay.Session

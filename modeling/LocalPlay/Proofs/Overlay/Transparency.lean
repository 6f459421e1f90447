import LocalPlay.Proofs.Overlay.Forwarding
import LocalPlay.Proofs.Wire.Resending

/-!
# Forwarding is transparent

What a peer sends through the overlay is read off its stream, stamped with the address of its seat,
encoded anew and read again by whoever it is for. Nothing is lost on this way but surplus bytes that
no message holds: the message that arrives has the address of the sender as its source, and putting
the source back that the sender had written gives the message as it was sent, `Traffic.Arrives`.
That the encoding cannot fail rests on the size that the sender's packet came with. Stamping changes
no length.

What a worker hands to its peers is exactly that, `peerPosts_serve`: for every message it had routed
and that is not under another's address, one packet for each destination.
-/

namespace LocalPlay.Overlay

open Net Wire

/-! ### Messages and packets -/

namespace Traffic

theorem toPacket_of_ofPacket? {packet : Packet} {traffic : Traffic}
    (h : ofPacket? packet = some traffic) : traffic.toPacket = packet := by
  cases packet with
  | proxyConnect => exact Option.some.inj h ▸ rfl
  | proxyConnectReply => exact Option.some.inj h ▸ rfl
  | proxyData => exact Option.some.inj h ▸ rfl
  | proxyDisconnect => exact Option.some.inj h ▸ rfl
  | _ => exact nomatch h

@[simp] theorem ofPacket?_toPacket (traffic : Traffic) :
    ofPacket? traffic.toPacket = some traffic := by
  cases traffic <;> rfl

variable (source : UInt32) (traffic : Traffic)

@[simp] theorem addressing_withSource :
    (traffic.withSource source).addressing = { traffic.addressing with source } := by
  cases traffic <;> rfl

@[simp] theorem withSource_withSource (other : UInt32) :
    (traffic.withSource source).withSource other = traffic.withSource other := by
  cases traffic <;> rfl

@[simp] theorem withSource_source : traffic.withSource traffic.addressing.source = traffic := by
  cases traffic <;> rfl

/-- A source takes up the same room whatever it is. -/
theorem length_payload_withSource :
    (traffic.withSource source).toPacket.payload.length = traffic.toPacket.payload.length := by
  have haddressing := Addressing.lawful_layout.length_encode
  have hheader := DataHeader.lawful_layout.length_encode
  have hclosure := ProxyClosure.lawful_layout.length_encode
  cases traffic <;> simp only [withSource, toPacket, Packet.payload, List.length_append,
    haddressing, hheader, hclosure]

/-- Traffic is stamped with its sender unless it has the address of somebody else. -/
theorem stamp?_eq (sender : UInt32) :
    traffic.stamp? sender =
      if traffic.addressing.source = 0 ∨ traffic.addressing.source = sender then
        some (traffic.withSource sender)
      else
        none := by
  rw [stamp?]
  by_cases hunset : traffic.addressing.source = 0
  · rw [if_pos hunset, if_pos (.inl hunset)]
  · rw [if_neg hunset]
    by_cases hown : traffic.addressing.source = sender
    · rw [if_pos hown, if_pos (.inr hown), ← hown, withSource_source]
    · rw [if_neg hown, if_neg (not_or.mpr ⟨hunset, hown⟩)]

/-- Whoever is sent the packet, in whatever pieces, finds one message in it: the traffic, but under
the address of its sender. -/
def Arrives (sender : UInt32) (packet : Packet) : Prop :=
  ∃ bytes, packet.encode = .ok bytes ∧ ∀ pieces : List Bytes, pieces.flatten = bytes →
    ∃ frame arrived, Reassembly.empty.feedAll pieces = ⟨[frame], none, .empty⟩ ∧
      ofPacket? frame.packet = some arrived ∧ arrived.addressing.source = sender ∧
      arrived.withSource traffic.addressing.source = traffic

variable {traffic}

theorem arrives_of_small {sender : UInt32}
    (hsmall : headerSize + traffic.toPacket.payload.length < packetLimit) :
    traffic.Arrives sender (traffic.withSource sender).toPacket := by
  rw [← traffic.length_payload_withSource sender] at hsmall
  obtain ⟨bytes, hencode, hfed⟩ := feedAll_of_small hsmall
  refine ⟨bytes, hencode, fun pieces hpieces => ?_⟩
  refine ⟨_, traffic.withSource sender, hfed pieces hpieces, ofPacket?_toPacket _, ?_, ?_⟩
  · rw [addressing_withSource]
  · rw [withSource_withSource, withSource_source]

/-- Traffic that was read off a stream is small enough to be sent on. -/
theorem small_of_mem_ofFrames {bytes : Bytes}
    (hmem : traffic ∈ ofFrames (readStream bytes).frames) :
    headerSize + traffic.toPacket.payload.length < packetLimit := by
  obtain ⟨frame, hframe, htraffic⟩ := List.mem_filterMap.mp hmem
  rw [toPacket_of_ofPacket? htraffic]
  exact small_of_mem_frames frame hframe

end Traffic

/-! ### What a worker hands out -/

/-- The packet that was handed to the link for a peer, if there was one. -/
def Notice.peerPost? : Notice → Option (Endpoint × Packet)
  | posted (.peer endpoint) packet _ => some (endpoint, packet)
  | _ => none

def peerPosts (notices : List Notice) : List (Endpoint × Packet) :=
  notices.filterMap Notice.peerPost?

/-- The packets for the peers that traffic is for. -/
def Registry.addressed (r : Registry) (sender : UInt32) (traffic : Traffic) :
    List (Endpoint × Packet) :=
  match traffic.stamp? sender with
  | none => []
  | some stamped =>
    (r.destinations stamped.addressing.dest).map fun endpoint => (endpoint, stamped.toPacket)

theorem peerPosts_append (notices more : List Notice) :
    peerPosts (notices ++ more) = peerPosts notices ++ peerPosts more :=
  List.filterMap_append

theorem peerPosts_deliveries (r : Registry) (link : Link) (seat : Option Nat) (sender : UInt32)
    (traffic : Traffic) :
    peerPosts (r.deliveries link seat sender traffic) = r.addressed sender traffic := by
  rw [Registry.deliveries, Registry.addressed]
  cases traffic.stamp? sender with
  | none => rfl
  | some stamped =>
    show peerPosts (List.map _ _) = _
    rw [peerPosts, List.filterMap_map]
    exact congrFun List.filterMap_eq_map (r.destinations stamped.addressing.dest)

/-- In its turn a worker hands to the peers what is addressed to them in the traffic that it has
routed, and nothing else. -/
theorem Host.peerPosts_serve (host : Host) (link : Link) (id : Nat) :
    let notices := (host.serve link id).notices
    peerPosts notices =
      (routedBy id notices).flatMap
        fun (sender, traffic) => host.registry.addressed sender traffic := by
  have hforwarding (worker : Worker) (datagram : Bytes) :
      peerPosts (host.forwarding link id worker datagram) =
        (routedBy id (host.forwarding link id worker datagram)).flatMap
          fun (sender, traffic) => host.registry.addressed sender traffic := by
    rw [forwarding, routedBy_deliveries, List.flatMap_map, peerPosts, List.filterMap_flatMap]
    congr 1
    funext traffic
    exact peerPosts_deliveries host.registry link (some id) worker.seat.virtualIp traffic
  have hturn := host.turn link id
  generalize host.serve link id = scene at hturn ⊢
  cases hturn with
  | idle => rfl
  | ended => rfl
  | read => exact hforwarding _ _
  | lost => exact hforwarding _ _
  | @expelled _ _ _ _ seat =>
    intro notices
    have hquiet := quiet_expel id seat .corrupt .relay (.proxyState ⟨seat.virtualIp, false⟩)
      (link .relay (.proxyState ⟨seat.virtualIp, false⟩))
    rw [hquiet.routed_append, peerPosts_append, hforwarding]
    exact List.append_nil _

/-! ### The run -/

open Host (Move)

/-- What a worker has routed is in the stream that its peer sent, however it was cut. -/
theorem mem_stream_of_routed {authWait : Nat} {moves : List Move} {applicant : Nat}
    {token : ProxyToken} {seat : Seat}
    (hseat : .admitted applicant token seat ∈ (Chronicle.ofMoves authWait moves).notices)
    {sender : UInt32} {traffic : Traffic}
    (hrouted : (sender, traffic) ∈ routedBy seat.id (Chronicle.ofMoves authWait moves).notices) :
    sender = seat.virtualIp ∧
      traffic ∈ Traffic.ofFrames (readStream
        (acceptedBy seat.id (Chronicle.ofMoves authWait moves).notices).flatten).frames := by
  have hsent := (routed_isPrefix List.prefix_rfl hseat).subset hrouted
  obtain ⟨_, hmem, ⟨⟩⟩ := List.mem_map.mp hsent
  rw [trafficIn, Reassembly.feedAll_eq Reassembly.waits_empty] at hmem
  exact ⟨rfl, hmem⟩

/-- Whatever a peer sends and however it is cut: every message that is routed for it is one of those
in its stream. Unless it has the address of somebody else, its packet can be encoded, and whoever is
sent the encoding finds this message and nothing else in it, with the address of the peer for its
source and otherwise as the peer has sent it. And what a worker hands to the peers in its turn is
this packet of every message that it has routed, once for each destination, and nothing else. -/
theorem forwarded_unchanged {authWait : Nat} {moves : List Move} {applicant : Nat}
    {token : ProxyToken} {seat : Seat}
    (hseat : .admitted applicant token seat ∈ (Chronicle.ofMoves authWait moves).notices) :
    let notices := (Chronicle.ofMoves authWait moves).notices
    (∀ sender traffic, (sender, traffic) ∈ routedBy seat.id notices →
      sender = seat.virtualIp ∧
      traffic ∈ Traffic.ofFrames (readStream (acceptedBy seat.id notices).flatten).frames ∧
      (traffic.stamp? sender = none ↔
        traffic.addressing.source ≠ 0 ∧ traffic.addressing.source ≠ seat.virtualIp) ∧
      ∀ stamped, traffic.stamp? sender = some stamped →
        traffic.Arrives seat.virtualIp stamped.toPacket) ∧
    ∀ (host : Host) (link : Link),
      let spoken := (host.serve link seat.id).notices
      peerPosts spoken = (routedBy seat.id spoken).flatMap fun (sender, traffic) =>
        host.registry.addressed sender traffic := by
  intro notices
  refine ⟨fun sender traffic hrouted => ?_, fun host link => host.peerPosts_serve link seat.id⟩
  obtain ⟨rfl, hmem⟩ := mem_stream_of_routed hseat hrouted
  refine ⟨rfl, hmem, ?_, fun stamped hstamped => ?_⟩
  · rw [traffic.stamp?_eq]
    split
    · rename_i hown
      exact ⟨nofun, fun h => (hown.elim h.1 h.2).elim⟩
    · rename_i hother
      exact ⟨fun _ => not_or.mp hother, fun _ => rfl⟩
  · rw [traffic.stamp?_eq] at hstamped
    split at hstamped
    · obtain rfl := Option.some.inj hstamped
      exact Traffic.arrives_of_small (Traffic.small_of_mem_ofFrames hmem)
    · exact nomatch hstamped

/-- A connect with three bytes too many and data that is not as long as it says, cut inside the
first header and inside the second. -/
theorem forwarded_unchanged_of_two :
    let token (ip : UInt32) : ProxyToken := ⟨ip, .zero, .zero, .v4⟩
    let endpoint (port : UInt16) : Endpoint := { ip := .v4 .zero, port }
    let offer : ProxyOffer := { ip := .zero, family := .v4, port := 0, token := .zero }
    let link : Link := fun _ _ => none
    let addressing : Addressing := ⟨0, 7, 2, 80, 6⟩
    let connect : Traffic := .connect addressing
    let data : Traffic := .data ⟨addressing, 999⟩ [1, 2, 3]
    let bytes : Bytes := Header.layout.encode (.announce .proxyConnect 19) ++
      Addressing.layout.encode addressing ++ [9, 9, 9] ++ data.toPacket.encode.toOption.getD []
    let moves : List Move := [.addToken (token 1), .addToken (token 2),
      .apply 0 (endpoint 7) offer, .apply 0 (endpoint 8) offer, .perform 0 link (.consider 0),
      .perform 0 link (.consider 1), .receive (endpoint 7) (bytes.take 10),
      .receive (endpoint 7) ((bytes.drop 10).take 30), .receive (endpoint 7) (bytes.drop 40),
      .perform 0 link (.serve 0), .perform 0 link (.serve 0), .perform 0 link (.serve 0)]
    let notices := (Chronicle.ofMoves 1000 moves).notices
    .admitted 0 (token 1) ⟨0, endpoint 7, 1⟩ ∈ notices ∧
      routedBy 0 notices = [(1, connect), (1, data)] ∧
      connect.Arrives 1 (connect.withSource 1).toPacket ∧
      data.Arrives 1 (data.withSource 1).toPacket := by
  intro token endpoint offer link addressing connect data bytes moves notices
  have hadmitted : .admitted 0 (token 1) ⟨0, endpoint 7, 1⟩ ∈ notices :=
    mem_admissions.mp (by decide +kernel)
  have hrouted : routedBy 0 notices = [(1, connect), (1, data)] := by decide +kernel
  obtain ⟨hall, -⟩ := forwarded_unchanged hadmitted
  have harrives : ∀ traffic, (1, traffic) ∈ routedBy 0 notices → ∀ stamped,
      traffic.stamp? 1 = some stamped → traffic.Arrives 1 stamped.toPacket :=
    fun traffic hmem => (hall 1 traffic hmem).2.2.2
  rw [hrouted] at harrives
  exact ⟨hadmitted, hrouted, harrives connect (by simp) _ rfl, harrives data (by simp) _ rfl⟩

end LocalPlay.Overlay

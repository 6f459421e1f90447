import LocalPlay.Proofs.Overlay.Move

/-!
# What a host sends

A host shares its link with the session that runs it. It only ever sends three kinds of packets:
the address an applicant is assigned, that an address is gone, and traffic. So whatever else goes
over the link is the session's own.
-/

namespace LocalPlay.Overlay

open Net Wire

/-- The packet this notice says was handed to the link. -/
def Notice.sent? : Notice → Option Packet
  | posted _ packet _ => some packet
  | _ => none

namespace Host

/-- What a host has to say. -/
inductive Speech : Packet → Prop
  | assigned (config : OverlayConfig) : Speech (.overlayConfig config)
  | gone (ip : UInt32) : Speech (.proxyState ⟨ip, false⟩)
  | traffic (traffic : Traffic) : Speech traffic.toPacket

variable {notice : Notice} {packet : Packet}

theorem not_sent_closeAll {scene : Scene} {why : Departure} {seats : List Seat}
    (hscene : ∀ notice ∈ scene.notices, notice.sent? = none)
    (hmem : notice ∈ (scene.closeAll why seats).notices) : notice.sent? = none := by
  rw [Scene.closeAll_eq] at hmem
  rcases List.mem_append.mp hmem with hmem | hmem
  · exact hscene notice hmem
  · obtain ⟨seat, -, rfl⟩ := List.mem_map.mp hmem
    rfl

theorem not_sent_tokenDropped {tokens : List ProxyToken} :
    ∀ notice ∈ tokens.map Notice.tokenDropped, notice.sent? = none := by
  simp [Notice.sent?]

theorem speech_deliveries {r : Registry} {link : Link} {seat : Option Nat} {sender : UInt32}
    {traffic : Traffic} (hmem : notice ∈ r.deliveries link seat sender traffic)
    (hsent : notice.sent? = some packet) : Speech packet := by
  rw [Registry.deliveries, List.mem_cons] at hmem
  rcases hmem with rfl | hmem
  · cases hsent
  · split at hmem
    · cases hmem
    · rename_i stamped hstamp
      obtain ⟨endpoint, -, rfl⟩ := List.mem_map.mp hmem
      cases hsent
      exact .traffic stamped

theorem speech_forwarding {host : Host} {link : Link} {id : Nat} {worker : Worker}
    {datagram : Bytes} (hmem : notice ∈ host.forwarding link id worker datagram)
    (hsent : notice.sent? = some packet) : Speech packet := by
  obtain ⟨traffic, -, hmem⟩ := List.mem_flatMap.mp hmem
  exact speech_deliveries hmem hsent

theorem speech_expelled {seat : Seat} {why : Departure} {target : Target}
    {refusal : Option SendError}
    (hmem : notice ∈ [.left seat why, .posted target (.proxyState ⟨seat.virtualIp, false⟩) refusal])
    (hsent : notice.sent? = some packet) : Speech packet := by
  rw [List.mem_cons, List.mem_singleton] at hmem
  rcases hmem with rfl | rfl
  · cases hsent
  · cases hsent
    exact .gone seat.virtualIp

theorem speech_letIn {host : Host} {link : Link} {applicant : Applicant} {claim : Registry.Claim}
    (hmem : notice ∈ (host.letIn link applicant claim).notices)
    (hsent : notice.sent? = some packet) : Speech packet := by
  simp only [letIn, List.mem_cons, List.mem_append, List.mem_map, List.not_mem_nil, or_false] at hmem
  rcases hmem with rfl | ⟨seat, -, rfl⟩ | rfl | rfl
  · cases hsent
  · cases hsent
  · cases hsent
    exact .assigned (assigned claim.token)
  · cases hsent

theorem speech_serve {host : Host} {link : Link} {id : Nat}
    (hmem : notice ∈ (host.serve link id).notices) (hsent : notice.sent? = some packet) :
    Speech packet := by
  have hturn := host.turn link id
  generalize host.serve link id = scene at hturn hmem
  cases hturn with
  | idle => cases hmem
  | ended => cases hmem
  | read => exact speech_forwarding hmem hsent
  | lost => exact speech_forwarding hmem hsent
  | expelled =>
    rcases List.mem_append.mp hmem with hmem | hmem
    · exact speech_forwarding hmem hsent
    · exact speech_expelled hmem hsent

/-- Whatever a host does, it has nothing else to say. -/
theorem speech_move {host : Host} {move : Move} (hmem : notice ∈ (host.move move).notices)
    (hsent : notice.sent? = some packet) : Speech packet := by
  cases move with
  | addToken token => cases hmem
  | apply now endpoint offer => cases hmem
  | applyPresence presence =>
    rw [Host.move, applyPresence] at hmem
    split at hmem
    · cases hmem
    · rw [not_sent_closeAll not_sent_tokenDropped hmem] at hsent
      cases hsent
  | receive endpoint datagram =>
    have hreceive := host.receive_cases endpoint datagram
    rw [Host.move] at hmem
    rcases hreceive with hdropped | ⟨seat, worker, -, -, -, hqueued⟩
    · rw [hdropped] at hmem
      cases hmem
    · rw [hqueued, queue, List.mem_singleton] at hmem
      subst hmem
      cases hsent
  | route link sender traffic =>
    rw [Host.move, route, Scene.route_eq] at hmem
    exact speech_deliveries hmem hsent
  | unregister link endpoint =>
    rw [Host.move, unregister] at hmem
    split at hmem
    · cases hmem
    · rw [Scene.expel_eq] at hmem
      exact speech_expelled hmem hsent
  | shutdown =>
    rw [not_sent_closeAll not_sent_tokenDropped hmem] at hsent
    cases hsent
  | perform now link job =>
    cases job with
    | dismiss id => cases hmem
    | serve id => exact speech_serve hmem hsent
    | consider id =>
      rw [Host.move, perform] at hmem
      rcases host.consider_cases now link id with
        ⟨hsame, -⟩ | ⟨applicant, -, -, -, hover⟩ | ⟨applicant, claim, -, -, hscene⟩
      · rw [hsame] at hmem
        cases hmem
      · rw [hover, List.mem_singleton] at hmem
        subst hmem
        cases hsent
      · rw [hscene] at hmem
        exact speech_letIn hmem hsent

end Host

end LocalPlay.Overlay

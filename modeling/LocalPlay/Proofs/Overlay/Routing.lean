import LocalPlay.Proofs.Overlay.Addresses
import LocalPlay.Proofs.Overlay.Losses
import LocalPlay.Proofs.Overlay.Transparency

/-!
# Who traffic is for

Traffic goes to everyone if it is addressed to everyone, and else to the one peer that has the
address, the oldest if there are several. Two addresses mean everyone: the broadcast address of the
overlay, and the one games use whatever the overlay is. `Addressees` says this of a registry, with
no word about how the peers are looked up.

An overlay is only unset while nobody has ever been seated, so the second address needs no overlay.
The seats are in the order in which they were granted, and no endpoint has two of them. What comes
of a packet at the link decides nothing: routing leaves everything as it is but for what it says.
-/

namespace LocalPlay.Overlay

open Net Wire

namespace Registry

variable {r : Registry} {dest : UInt32}

/-- The address means everyone. -/
def IsForAll (r : Registry) (dest : UInt32) : Prop :=
  dest = broadcastSentinel ∨ ∃ config, r.overlay = some config ∧ dest = config.broadcast

/-- The endpoints that traffic to an address is for, in order. -/
inductive Addressees (r : Registry) (dest : UInt32) : List Endpoint → Prop
  | everyone (hall : r.IsForAll dest) : Addressees r dest (r.seats.map (·.endpoint))
  | oldest {older younger : List Seat} {seat : Seat} (hone : ¬ r.IsForAll dest)
      (hseats : r.seats = older ++ seat :: younger) (hseat : seat.virtualIp = dest)
      (holder : ∀ other ∈ older, other.virtualIp ≠ dest) : Addressees r dest [seat.endpoint]
  | nobody (hone : ¬ r.IsForAll dest) (hnone : ∀ seat ∈ r.seats, seat.virtualIp ≠ dest) :
    Addressees r dest []

theorem Addressees.nodup {endpoints : List Endpoint} (h : r.Addressees dest endpoints)
    (hapart : r.Apart) : endpoints.Nodup := by
  cases h with
  | everyone => exact hapart
  | oldest => exact List.nodup_singleton _
  | nobody => exact List.nodup_nil

theorem destinations_of_empty (hseats : r.seats = []) : r.destinations dest = [] := by
  simp [destinations, hseats]

/-- The address is looked up as it should be, if nobody is seated without an overlay. -/
theorem addressees_destinations (hopen : r.overlay = none → r.seats = []) (dest : UInt32) :
    r.Addressees dest (r.destinations dest) := by
  by_cases hall : r.IsForAll dest
  · have heveryone : r.destinations dest = r.seats.map (·.endpoint) := by
      cases hoverlay : r.overlay with
      | none => rw [destinations_of_empty (hopen hoverlay), hopen hoverlay, List.map_nil]
      | some config =>
        apply destinations_of_broadcast hoverlay
        refine hall.imp id fun ⟨other, hother, hdest⟩ => ?_
        obtain rfl := Option.some.inj (hoverlay.symm.trans hother)
        exact hdest
    rw [heveryone]
    exact .everyone hall
  · have hbroadcast : some dest ≠ r.overlay.map (·.broadcast) := by
      intro hdest
      obtain ⟨config, hoverlay, hconfig⟩ := Option.map_eq_some_iff.mp hdest.symm
      exact hall (.inr ⟨config, hoverlay, hconfig.symm⟩)
    rw [destinations_of_unicast (fun hdest => hall (.inl hdest)) hbroadcast]
    cases hfind : r.seats.find? (·.virtualIp == dest) with
    | none =>
      refine .nobody hall fun seat hseat hdest => ?_
      exact List.find?_eq_none.mp hfind seat hseat (beq_iff_eq.mpr hdest)
    | some seat =>
      obtain ⟨hseat, older, younger, hseats, holder⟩ := List.find?_eq_some_iff_append.mp hfind
      refine .oldest hall hseats (beq_iff_eq.mp hseat) fun other hother hdest => ?_
      have hnot := holder other hother
      simp [hdest] at hnot

end Registry

/-! ### Seats in the order of their admission -/

variable {authWait : Nat} {moves : List Host.Move}

theorem granted_concat (move : Host.Move) :
    granted (Chronicle.ofMoves authWait (moves ++ [move])).notices =
      granted (Chronicle.ofMoves authWait moves).notices ++
        granted ((Chronicle.ofMoves authWait moves).host.move move).notices := by
  rw [Chronicle.notices_concat, granted_append]

theorem seats_sublist_granted (authWait : Nat) (moves : List Host.Move) :
    (Chronicle.ofMoves authWait moves).host.registry.seats.Sublist
      (granted (Chronicle.ofMoves authWait moves).notices) := by
  induction moves using List.reverseRecOn with
  | nil => exact .slnil
  | append_singleton moves move ih =>
    rw [granted_concat, Chronicle.host_concat]
    rcases (Chronicle.ofMoves authWait moves).host.move_cases move with
      hquiet | ⟨now, link, applicant, claim, -, -, hclaim, hscene⟩
    · exact (hquiet.seats.trans ih).trans (List.sublist_append_left _ _)
    · obtain ⟨-, hseats, -⟩ := Registry.claim?_spec hclaim
      have hgranted : granted ((Chronicle.ofMoves authWait moves).host.letIn link applicant
          claim).notices = [claim.seat] := by
        rw [granted, Host.admissions_letIn]
        rfl
      rw [hscene, hgranted]
      show claim.registry.seats.Sublist _
      rw [hseats]
      exact (List.eraseP_sublist.trans ih).append (.refl _)

theorem seats_eq_nil_of_overlay
    (hnone : (Chronicle.ofMoves authWait moves).host.registry.overlay = none) :
    (Chronicle.ofMoves authWait moves).host.registry.seats = [] :=
  seats_eq_nil_of_admissions (overlay_eq_none_iff.mp hnone)

/-! ### Routing -/

/-- What routing says: traffic under another's address goes nowhere, and all other to its
addressees, whatever the link makes of it. -/
theorem Registry.deliveries_cases {r : Registry} (hopen : r.overlay = none → r.seats = [])
    (link : Link) (seat : Option Nat) (sender : UInt32) (traffic : Traffic) :
    (traffic.addressing.source ≠ 0 ∧ traffic.addressing.source ≠ sender →
      r.deliveries link seat sender traffic = [.routed seat sender traffic]) ∧
    (traffic.addressing.source = 0 ∨ traffic.addressing.source = sender →
      ∃ endpoints, r.Addressees traffic.addressing.dest endpoints ∧
        r.deliveries link seat sender traffic =
          .routed seat sender traffic :: endpoints.map fun endpoint =>
            .posted (.peer endpoint) (traffic.withSource sender).toPacket
              (link (.peer endpoint) (traffic.withSource sender).toPacket)) := by
  rw [deliveries, Traffic.stamp?_eq]
  constructor
  · intro hspoofed
    rw [if_neg (not_or.mpr hspoofed)]
  · intro hown
    rw [if_pos hown]
    refine ⟨_, addressees_destinations hopen traffic.addressing.dest, ?_⟩
    simp only [Traffic.addressing_withSource]

/-- Traffic in the name of `sender` that has another source is dropped. All other is sent under his
address, and else as it is, to each of its addressees once and in the order in which they sat down.
A target that cannot be reached keeps it from nobody else, and nobody's seat is touched. -/
theorem routed_to_addressees {authWait : Nat} {moves : List Host.Move} {scene : Scene}
    (hregistry : scene.host.registry = (Chronicle.ofMoves authWait moves).host.registry)
    (link : Link) (seat : Option Nat) (sender : UInt32) (traffic : Traffic) :
    let next := scene.route link seat sender traffic
    let source := traffic.addressing.source
    next.host = scene.host ∧ next.jobs = scene.jobs ∧
    (source ≠ 0 ∧ source ≠ sender →
      next.notices = scene.notices ++ [.routed seat sender traffic]) ∧
    (source = 0 ∨ source = sender → ∃ (sent : Traffic) (endpoints : List Endpoint),
      sent.addressing = { traffic.addressing with source := sender } ∧
      sent.withSource source = traffic ∧
      scene.host.registry.Addressees traffic.addressing.dest endpoints ∧ endpoints.Nodup ∧
      next.notices = scene.notices ++ .routed seat sender traffic :: endpoints.map fun endpoint =>
        .posted (.peer endpoint) sent.toPacket (link (.peer endpoint) sent.toPacket)) ∧
    scene.host.registry.seats.Sublist (granted (Chronicle.ofMoves authWait moves).notices) := by
  intro next source
  have hopen : scene.host.registry.overlay = none → scene.host.registry.seats = [] := by
    rw [hregistry]
    exact seats_eq_nil_of_overlay
  have hapart : scene.host.registry.Apart := by
    rw [hregistry]
    exact apart_ofMoves authWait moves
  obtain ⟨hspoofed, hown⟩ := Registry.deliveries_cases hopen link seat sender traffic
  have hnext : next = { scene with notices :=
      scene.notices ++ scene.host.registry.deliveries link seat sender traffic } :=
    scene.route_eq link seat sender traffic
  refine ⟨by rw [hnext], by rw [hnext], fun hsource => ?_, fun hsource => ?_, ?_⟩
  · rw [hnext, hspoofed hsource]
  · obtain ⟨endpoints, haddressees, hdeliveries⟩ := hown hsource
    refine ⟨traffic.withSource sender, endpoints, traffic.addressing_withSource sender, ?_,
      haddressees, haddressees.nodup hapart, ?_⟩
    · rw [Traffic.withSource_withSource, Traffic.withSource_source]
    · rw [hnext, hdeliveries]
  · rw [hregistry]
    exact seats_sublist_granted authWait moves

/-- Of two peers the first cannot be reached, and the second is sent the broadcast all the same. -/
theorem routed_to_addressees_of_broken_link :
    let token (ip : UInt32) : ProxyToken := ⟨ip, .zero, .zero, .v4⟩
    let endpoint (port : UInt16) : Endpoint := { ip := .v4 .zero, port }
    let offer : ProxyOffer := { ip := .zero, family := .v4, port := 0, token := .zero }
    let whole : Link := fun _ _ => none
    let moves : List Host.Move := [.addToken (token 1), .addToken (token 2),
      .apply 0 (endpoint 7) offer, .perform 0 whole (.consider 0),
      .apply 0 (endpoint 8) offer, .perform 0 whole (.consider 1)]
    let link : Link := fun target _ =>
      if target = .peer (endpoint 7) then some (.io .hostUnreachable) else none
    let scene : Scene := { host := (Chronicle.ofMoves 1000 moves).host }
    let traffic : Traffic := .connect { (default : Addressing) with dest := broadcastSentinel }
    scene.host.registry = (Chronicle.ofMoves 1000 moves).host.registry ∧
      traffic.addressing.source = 0 ∧
      ∃ sent : Traffic, sent.addressing.source = 2 ∧ (scene.route link none 2 traffic).notices =
        [.routed none 2 traffic,
          .posted (.peer (endpoint 7)) sent.toPacket (some (.io .hostUnreachable)),
          .posted (.peer (endpoint 8)) sent.toPacket none] := by
  intro token endpoint offer whole moves link scene traffic
  have hseats : scene.host.registry.seats.map (·.endpoint) = [endpoint 7, endpoint 8] := by decide
  have hregistry : scene.host.registry = (Chronicle.ofMoves 1000 moves).host.registry := rfl
  obtain ⟨-, -, -, hown, -⟩ := routed_to_addressees hregistry link none 2 traffic
  obtain ⟨sent, endpoints, hsent, -, haddressees, -, hnotices⟩ := hown (.inl rfl)
  have hall : scene.host.registry.IsForAll traffic.addressing.dest := .inl rfl
  refine ⟨hregistry, rfl, sent, by rw [hsent], ?_⟩
  cases haddressees with
  | oldest hone => exact absurd hall hone
  | nobody hone => exact absurd hall hone
  | everyone =>
    rw [hnotices, hseats]
    rfl

end LocalPlay.Overlay

import LocalPlay.Proofs.Session.Confinement
import LocalPlay.Proofs.Session.Moment
import LocalPlay.Proofs.Session.Patience

/-!
# Offers to the hosted proxy

Whoever presents a token that is pending is let in, provided that the offer is read. From a stranger
it is: it becomes an application, the applicant has one look at the tokens, and the look ends with an
answer and a seat. But all that comes from a seated endpoint goes to the worker of the seat, which
knows traffic and nothing else. So a peer that lost its address and offers again is not heard before
its seat is given up.
-/

namespace LocalPlay.Session

open Net Wire Overlay Timing

/-- The virtual addresses under which an endpoint is listed. -/
def addresses (s : Session) (endpoint : Endpoint) : List UInt32 :=
  ((s.hosted.toList.flatMap (·.registry.seats)).filter (·.endpoint == endpoint)).map (·.virtualIp)

/-- The endpoint was told the address of the token, and then it is listed once, under this
address. -/
structure LetIn (endpoint : Endpoint) (token : ProxyToken) (settled : Session × List Notice) :
    Prop where
  answered : .host (.posted (.peer endpoint) (.overlayConfig (assigned token)) none) ∈ settled.2
  listed : settled.1.addresses endpoint = [token.virtualIp]

variable {s : Session} {host : Host} {endpoint : Endpoint} {offer : ProxyOffer} {bytes : Bytes}
  {token : ProxyToken}

/-! ### Strangers -/

/-- An offer that is read becomes an application. -/
theorem move_offer (hhosted : s.hosted = some host) (hready : s.ready = [])
    (hlistening : s.isListening = true) (hrelay : endpoint ≠ s.relay)
    (hnone : s.streams.lookup endpoint = none)
    (hencode : (Packet.proxyOffer offer).encode = .ok bytes)
    (hseat : host.registry.seatAt? endpoint = none) :
    s.move (.event (.datagram endpoint bytes)) =
      { session := { s with
          streams := s.streams.filter (·.1 ≠ endpoint)
          hosted := some (host.apply s.clock endpoint offer).host
          ready := [.host (.consider host.applications)] }
        told := [.handled endpoint (.proxyOffer offer)] } := by
  have hseats : s.seats endpoint = false := by
    rw [seats, hhosted, Option.any_some, hseat]
    rfl
  have hasks : ({ s with streams := s.streams.filter (·.1 ≠ endpoint) } : Session).hostMove?
      endpoint (.proxyOffer offer) = some (.apply s.clock endpoint offer) := if_neg hrelay
  rw [move_packet hencode hlistening hseats hnone, Act.handle_of_hostMove? hasks,
    Act.atHost_of_some hhosted]
  exact Act.adopt_of_ready_nil hready (Nat.le_refl 1)

/-- A session settles with a job that is ready alone and wakes no other. -/
theorem settle_of_job (hhosted : s.hosted = some host) {job : Job}
    (hready : s.ready = [.host job]) {scene : Scene}
    (hscene : host.perform s.clock s.link job = scene) (hjobs : scene.jobs = []) :
    machine.settle s =
      ({ s with hosted := some scene.host, ready := [] }, scene.notices.map .host) := by
  have hperform := Act.perform_host s host [] job
  have hsame : host.perform s.clock ({ s with hosted := some host, ready := [] } : Session).link
      job = scene := hscene
  have hwakes : scene.jobs.length ≤ 1 := hjobs ▸ Nat.zero_le 1
  rw [hsame, Act.adopt_of_ready_nil rfl hwakes, hjobs] at hperform
  have hturn : machine.turn s =
      some ({ s with hosted := some scene.host, ready := [] }, scene.notices.map .host) := by
    show s.turn = _
    rw [turn, hready]
    dsimp only
    rw [← hhosted] at hperform
    rw [hperform]
    rfl
  rw [Machine.settle]
  obtain ⟨turns, hturns⟩ : ∃ turns, machine.turns s = turns + 1 := ⟨_, rfl⟩
  rw [hturns, Machine.settleWithin, hturn]
  dsimp only
  rw [settleWithin_of_ready_nil rfl, List.append_nil]

/-- A stranger who offers a pending token is let in. -/
theorem step_offer (hreachable : host.Reachable) (hhosted : s.hosted = some host)
    (hready : s.ready = []) (hlistening : s.isListening = true) (hrelay : endpoint ≠ s.relay)
    (hnone : s.streams.lookup endpoint = none)
    (hencode : (Packet.proxyOffer offer).encode = .ok bytes)
    (hseat : host.registry.seatAt? endpoint = none) {claim : Registry.Claim}
    (hclaim : host.registry.claim? host.grants endpoint offer.token = some claim) :
    ∃ scene, (host.apply s.clock endpoint offer).host.letIn s.link
        ⟨host.applications, endpoint, offer.token, s.clock + host.authWait⟩ claim = scene ∧
      (s.step (.datagram endpoint bytes)).2 =
        ({ s with streams := s.streams.filter (·.1 ≠ endpoint), hosted := some scene.host },
          .handled endpoint (.proxyOffer offer) :: scene.notices.map .host) := by
  refine ⟨_, rfl, ?_⟩
  have hmove := move_offer hhosted hready hlistening hrelay hnone hencode hseat
  have hscene := hreachable.perform_apply s.clock s.link hclaim
  have hjobs : ((host.apply s.clock endpoint offer).host.letIn s.link
      ⟨host.applications, endpoint, offer.token, s.clock + host.authWait⟩ claim).jobs = [] := by
    rw [Host.letIn, Registry.replaced_of_claim? hclaim, hseat]
    rfl
  generalize Host.letIn _ _ _ claim = scene at hscene hjobs ⊢
  have hsettle := settle_of_job (s := { s with
      streams := s.streams.filter (·.1 ≠ endpoint)
      hosted := some (host.apply s.clock endpoint offer).host
      ready := [.host (.consider host.applications)] }) rfl rfl hscene hjobs
  have hhappen : (s.happen (.datagram endpoint bytes)).2 = _ := hmove
  rw [step]
  dsimp only
  rw [hhappen, hsettle, ← hready]
  rfl

/-- A claim lists an endpoint that was not listed once. -/
theorem filter_seats_of_claim? {r : Registry} {id : Nat} {presented : Block 16}
    {claim : Registry.Claim} (hclaim : r.claim? id endpoint presented = some claim)
    (hseat : r.seatAt? endpoint = none) :
    claim.registry.seats.filter (·.endpoint == endpoint) = [claim.seat] := by
  obtain ⟨hnew, hseats, -⟩ := Registry.claim?_spec hclaim
  have hothers : ∀ seat ∈ r.seats, ¬ (seat.endpoint == endpoint) = true :=
    List.find?_eq_none.mp hseat
  have hself : (claim.seat.endpoint == endpoint) = true := by
    rw [hnew]
    exact beq_self_eq_true endpoint
  rw [hseats, List.eraseP_of_forall_not hothers, List.filter_append,
    List.filter_eq_nil_iff.mpr hothers, List.nil_append, List.filter_singleton, hself]
  rfl

theorem letIn_of_not_seated (hreachable : host.Reachable) (hhosted : s.hosted = some host)
    (hready : s.ready = []) (hlistening : s.isListening = true) (hrelay : endpoint ≠ s.relay)
    (hnone : s.streams.lookup endpoint = none)
    (hencode : (Packet.proxyOffer offer).encode = .ok bytes)
    (hpending : host.registry.tokens.find? (admits offer.token endpoint) = some token)
    (hlink : s.link (.peer endpoint) (.overlayConfig (assigned token)) = none)
    (hseat : host.registry.seatAt? endpoint = none) :
    LetIn endpoint token (s.step (.datagram endpoint bytes)).2 := by
  obtain ⟨claim, hclaim, rfl⟩ : ∃ claim,
      host.registry.claim? host.grants endpoint offer.token = some claim ∧ claim.token = token :=
    ⟨_, by rw [Registry.claim?, hpending]; rfl, rfl⟩
  obtain ⟨scene, rfl, hstep⟩ := step_offer hreachable hhosted hready hlistening hrelay hnone
    hencode hseat hclaim
  let applicant : Applicant :=
    ⟨host.applications, endpoint, offer.token, s.clock + host.authWait⟩
  have hgranted : (host.apply s.clock endpoint offer).host.Granted s.link applicant.id endpoint
      offer.token claim.token claim.seat
      ((host.apply s.clock endpoint offer).host.letIn s.link applicant claim) :=
    Host.granted_letIn s.link hclaim
  rw [hstep]
  refine ⟨List.mem_cons_of_mem _ (List.mem_map_of_mem (hlink ▸ hgranted.answered)), ?_⟩
  have haddress : claim.seat.virtualIp = claim.token.virtualIp := hgranted.seated.2.2
  have hseats := filter_seats_of_claim? hclaim hseat
  rw [addresses]
  dsimp only [Host.letIn]
  rw [Option.toList_some, List.flatMap_singleton, hseats, List.map_singleton, haddress]

/-! ### Peers -/

/-- What a seated peer offers is for its worker, and nothing is answered. -/
theorem not_letIn_of_seated (hhosted : s.hosted = some host) (hseated : host.Seated)
    (hready : s.ready = []) {seat : Seat} (hseat : host.registry.seatAt? endpoint = some seat)
    (datagram : Bytes) (token : ProxyToken) :
    ¬ LetIn endpoint token (s.step (.datagram endpoint datagram)).2 := by
  obtain ⟨next, notices, hstep, hconfined⟩ :=
    step_confined hhosted hseated hseat hready datagram
  rw [hstep]
  intro hletIn
  obtain ⟨notice, hmem, hnotice⟩ := List.mem_map.mp hletIn.answered
  obtain rfl := Notice.host.inj hnotice
  exact hconfined.not_assigned _ _ _ hmem

/-! ### Any run -/

/-- Whenever a session at rest hosts a proxy, an endpoint offers a token that is pending there, and
nothing keeps the offer and the answer from getting through, then the endpoint is let in on this
token exactly if it is not seated already. -/
theorem let_in_iff_not_seated {settings : Settings} {interfaces : Interfaces}
    {localAddress : Except IoError Endpoint}
    (hcreate : create settings interfaces localAddress = .ok s) (moves : List Move)
    (hhosted : (s.after moves).session.hosted = some host)
    (hready : (s.after moves).session.ready = [])
    (hlistening : (s.after moves).session.isListening = true)
    (hrelay : endpoint ≠ (s.after moves).session.relay)
    (hnone : (s.after moves).session.streams.lookup endpoint = none)
    (hencode : (Packet.proxyOffer offer).encode = .ok bytes)
    (hpending : host.registry.tokens.find? (admits offer.token endpoint) = some token)
    (hlink : (s.after moves).session.link (.peer endpoint) (.overlayConfig (assigned token)) =
      none) :
    LetIn endpoint token ((s.after moves).session.step (.datagram endpoint bytes)).2 ↔
      host.registry.seatAt? endpoint = none := by
  constructor
  · intro hletIn
    obtain ⟨hempty, -⟩ := new_of_create hcreate
    have hseated : host.Seated := hosts_after (fun _ => Host.seated_of_empty)
      (fun _ h => h.move) hempty moves host hhosted
    refine Option.eq_none_iff_forall_not_mem.mpr fun seat hseat => ?_
    exact not_letIn_of_seated hhosted hseated hready hseat bytes token hletIn
  · intro hseat
    have hreachable : host.Reachable :=
      ((sound_create hcreate).after moves).alert.hosted host hhosted
    exact letIn_of_not_seated hreachable hhosted hready hlistening hrelay hnone hencode hpending
      hlink hseat

/-- Whoever has the empty token may come from anywhere. -/
def sampleToken (virtualIp : UInt32) : ProxyToken :=
  ⟨virtualIp, .zero, .zero, .unspecified⟩

theorem encode_sampleOffer :
    (Packet.proxyOffer ⟨.zero, .unspecified, 0, .zero⟩).encode = .ok sampleOffer := by
  rw [Packet.encode_eq_ok_iff]
  decide +kernel

/-- A token is pending, and nobody has come yet. -/
def expectingRun : List Move :=
  (sampleRun sample.relay).take 2 ++ [.turn (.resume 0)]

theorem let_in_iff_not_seated_of_expectingRun :
    let t := (sample.after expectingRun).session
    create {} (.ok []) (.ok sampleAddress) = .ok sample ∧
      ∃ host, t.hosted = some host ∧ t.ready = [] ∧ t.isListening = true ∧ samplePeer ≠ t.relay ∧
        t.streams.lookup samplePeer = none ∧
        host.registry.tokens.find? (admits .zero samplePeer) = some (sampleToken 1) ∧
        t.link (.peer samplePeer) (.overlayConfig (assigned (sampleToken 1))) = none ∧
        host.registry.seatAt? samplePeer = none ∧
        LetIn samplePeer (sampleToken 1) (t.step (.datagram samplePeer sampleOffer)).2 := by
  intro t
  have hcreate : create {} (.ok []) (.ok sampleAddress) = .ok sample := rfl
  have hready : t.ready = [] := List.isEmpty_iff.mp (by decide +kernel)
  have hlistening : t.isListening = true := by decide +kernel
  have hrelay : samplePeer ≠ t.relay := by decide +kernel
  have hnone : t.streams.lookup samplePeer = none := by
    have hempty : t.streams = [] := List.isEmpty_iff.mp (by decide +kernel)
    rw [hempty]
    rfl
  have hlink : t.link (.peer samplePeer) (.overlayConfig (assigned (sampleToken 1))) = none :=
    Option.isNone_iff_eq_none.mp (by decide +kernel)
  have hregistry : t.hosted.map (·.registry) =
      some { tokens := [sampleToken 1] } := by decide +kernel
  obtain ⟨host, hhosted, hempty⟩ := Option.map_eq_some_iff.mp hregistry
  have hpending : host.registry.tokens.find? (admits .zero samplePeer) = some (sampleToken 1) := by
    rw [hempty]
    decide +kernel
  have hseat : host.registry.seatAt? samplePeer = none := by
    rw [hempty]
    rfl
  refine ⟨hcreate, host, hhosted, hready, hlistening, hrelay, hnone, hpending, hlink, hseat, ?_⟩
  exact (let_in_iff_not_seated hcreate expectingRun hhosted hready hlistening hrelay hnone
    encode_sampleOffer hpending hlink).mpr hseat

/-- A peer is seated under the address 1, and the relay has sent a token for the address 2. -/
def rejoiningRun : List Move :=
  seatedRun ++ [.event (.datagram sample.relay
    ([82, 76, 68, 78, 0, 0, 0, 0, 0, 5, 1, 40, 0, 0, 0, 2] ++ List.replicate 39 0))]

/-- The peer offers the second token, and is not let in. -/
theorem not_let_in_again :
    let t := (sample.after rejoiningRun).session
    create {} (.ok []) (.ok sampleAddress) = .ok sample ∧
      ∃ host, t.hosted = some host ∧ t.ready = [] ∧ t.isListening = true ∧ samplePeer ≠ t.relay ∧
        t.streams.lookup samplePeer = none ∧
        (Packet.proxyOffer ⟨.zero, .unspecified, 0, .zero⟩).encode = .ok sampleOffer ∧
        host.registry.tokens.find? (admits .zero samplePeer) = some (sampleToken 2) ∧
        t.link (.peer samplePeer) (.overlayConfig (assigned (sampleToken 2))) = none ∧
        ¬ LetIn samplePeer (sampleToken 2) (t.step (.datagram samplePeer sampleOffer)).2 := by
  intro t
  have hready : t.ready = [] := List.isEmpty_iff.mp (by decide +kernel)
  have hnone : t.streams.lookup samplePeer = none := by
    have hempty : t.streams = [] := List.isEmpty_iff.mp (by decide +kernel)
    rw [hempty]
    rfl
  have hlink : t.link (.peer samplePeer) (.overlayConfig (assigned (sampleToken 2))) = none :=
    Option.isNone_iff_eq_none.mp (by decide +kernel)
  have hregistry : t.hosted.map (·.registry) = some
      { seats := [⟨0, samplePeer, 1⟩], tokens := [sampleToken 2],
        overlay := some (assigned (sampleToken 1)) } := by decide +kernel
  obtain ⟨host, hhosted, hhost⟩ := Option.map_eq_some_iff.mp hregistry
  have hpending : host.registry.tokens.find? (admits .zero samplePeer) = some (sampleToken 2) := by
    rw [hhost]
    decide +kernel
  have hseat : host.registry.seatAt? samplePeer = some ⟨0, samplePeer, 1⟩ := by
    rw [hhost]
    decide +kernel
  have hseated : host.Seated := hosts_after (fun _ => Host.seated_of_empty) (fun _ h => h.move) rfl
    rejoiningRun host hhosted
  exact ⟨rfl, host, hhosted, hready, by decide +kernel, by decide +kernel, hnone,
    encode_sampleOffer, hpending, hlink,
    not_letIn_of_seated hhosted hseated hready hseat sampleOffer (sampleToken 2)⟩

end LocalPlay.Session

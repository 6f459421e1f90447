import LocalPlay.Proofs.Session.Course
import LocalPlay.Proofs.Session.Moment

/-!
# What packets make of a session's standing

The standing of a session is what it is to its relay and to its network, and what it has from them.
Packets change it, and all but one kind do so whoever sent them: only for an offer of a proxy it
matters whether it came from the relay. So what a datagram from anyone else does to the standing can
be said of the packets in it alone. A packet of some kinds leaves every standing as it is; for each
of the others there is a standing that it changes.
-/

namespace LocalPlay.Session

open Net Wire Overlay Timing

/-- What a session is to its relay and to its network, and what it has from them. -/
structure Standing where
  phase : Phase
  identity : Identity
  inNetwork : Bool
  lastError : NetworkError
  networks : List NetworkInfo
  leaveReason : LeaveReason
  p2p : Bool
  membership : Option Membership
  overlay : Option OverlayConfig

def standing (s : Session) : Standing where
  phase := s.phase
  identity := s.identity
  inNetwork := s.inNetwork
  lastError := s.lastError
  networks := s.networks
  leaveReason := s.leaveReason
  p2p := s.p2p
  membership := s.membership
  overlay := s.overlay

namespace Standing

/-- Outside of networks there is nothing to leave. -/
def leave (standing : Standing) : Standing :=
  if standing.inNetwork then
    { standing with inNetwork := false, membership := none, overlay := none }
  else
    standing

/-- What a packet makes of it. An offer of a proxy is taken as one to the hosted proxy. -/
def heed (standing : Standing) : Packet → Standing
  | .hello identity => { standing with identity, phase := .connected }
  | .connected _ => { standing with inNetwork := true, leaveReason := .none }
  | .reject removal => { standing with leaveReason := removal.reason }
  | .disconnect _ => standing.leave
  | .scanReply info => { standing with networks := standing.networks ++ [info] }
  | .overlayConfig config =>
    match standing.membership with
    | some membership =>
      { standing with
        membership := some { membership with guest := membership.guest.assign config } }
    | none => { standing with overlay := some config }
  | .networkError .portUnreachable => { standing with p2p := false }
  | .networkError error => { standing with lastError := error }
  | _ => standing

end Standing

/-- The packet is of a kind that can change the standing whoever sent it. -/
def isAuthoritative : Packet → Bool
  | .hello _ | .connected _ | .reject _ | .disconnect _ | .scanReply _ | .overlayConfig _
  | .networkError _ => true
  | _ => false

/-- Neither the relay nor seated at the hosted proxy nor the host that the relay has named. -/
structure IsStranger (s : Session) (endpoint : Endpoint) : Prop where
  relay : endpoint ≠ s.relay
  seat : s.seats endpoint = false
  host : ∀ membership, s.membership = some membership → endpoint ≠ membership.guest.endpoint

/-- The packets a datagram completes if it is read. -/
def completed (s : Session) (sender : Endpoint) (bytes : Bytes) : List Packet :=
  if s.isListening then (reassemble s.streams sender (bytes.take receiveLimit)).1 else []

/-! ### One packet -/

namespace Act

theorem standing_foldl_wake {α : Type} (activity : α → Activity) (xs : List α) (a : Act) :
    (xs.foldl (fun a x => a.wake (activity x)) a).session.standing = a.session.standing := by
  obtain ⟨ready, hwake⟩ := foldl_wake_eq activity xs a
  rw [hwake]
  rfl

theorem standing_raise (a : Act) (signal : Signal) :
    (a.raise signal).session.standing = a.session.standing :=
  standing_foldl_wake (fun w : Waiting => .resume w.id) _ _

theorem standing_leave (a : Act) : a.leave.session.standing = a.session.standing.leave := by
  cases hnetwork : a.session.inNetwork with
  | false =>
    have hout : a.session.standing.inNetwork = false := hnetwork
    rw [leave, hnetwork, Standing.leave, hout]
    rfl
  | true =>
    have hin : a.session.standing.inNetwork = true := hnetwork
    obtain ⟨ready, notices, hleave⟩ := leave_eq hnetwork
    rw [hleave, Standing.leave, hin]
    rfl

theorem standing_atHost (a : Act) (f : Host → Scene) :
    (a.atHost f).session.standing = a.session.standing := by
  rw [atHost]
  split
  · rename_i host _
    obtain ⟨ready, hadopt⟩ := a.adopt_eq (f host)
    rw [hadopt]
    rfl
  · rfl

theorem standing_acceptOverlay (a : Act) (config : OverlayConfig) :
    (a.acceptOverlay config).session.standing =
      a.session.standing.heed (.overlayConfig config) := by
  rw [acceptOverlay, Standing.heed]
  split
  · rename_i membership hsome
    split
    · rename_i other hother
      obtain rfl : membership = other := Option.some.inj (hsome.symm.trans hother)
      exact standing_foldl_wake (fun w : Waiting => .resume w.id) _ _
    · rename_i hnone
      exact nomatch hsome.symm.trans hnone
  · rename_i hnone
    split
    · rename_i membership hsome
      exact nomatch hnone.symm.trans hsome
    · rfl

/-- An offer from the relay is the only packet for which it matters who sent it. -/
theorem standing_handle (a : Act) {sender : Endpoint} {packet : Packet}
    (hoffer : ∀ offer, packet = .proxyOffer offer → sender ≠ a.session.relay) :
    (a.handle sender packet).session.standing = a.session.standing.heed packet := by
  cases packet with
  | hello identity => exact standing_raise _ _
  | connected info => exact standing_raise _ _
  | rejectReply => exact standing_raise _ _
  | disconnect ip => exact standing_leave _
  | scanEnd => exact standing_raise _ _
  | proxyOffer offer =>
    have hstranger := hoffer offer rfl
    have happly : a.handle sender (.proxyOffer offer) =
        (a.tell (.handled sender (.proxyOffer offer))).atHost
          fun host => host.apply a.session.clock sender offer := if_neg hstranger
    rw [happly]
    exact standing_atHost _ _
  | proxyToken token => exact standing_atHost _ _
  | proxyState presence => exact standing_atHost _ _
  | overlayConfig config => exact standing_acceptOverlay _ _
  | ping ping =>
    show (if ping.requester = 0 then _ else _ : Act).session.standing = _
    split
    · rfl
    · rfl
  | networkError error =>
    cases error with
    | portUnreachable => rfl
    | _ => exact standing_raise _ _
  | _ => rfl

end Act

/-! ### A datagram -/

theorem Step.relay_eq {origin s t : Session} {m : Move} {told : List Notice}
    (h : Step origin m s t told) : t.relay = s.relay := by
  cases h with
  | _ => rfl

theorem Steps.relay_eq {origin s t : Session} {m : Move} {told : List Notice}
    (h : Steps origin m s t told) : t.relay = s.relay := by
  induction h with
  | refl => rfl
  | tail _ hstep ih => exact hstep.relay_eq.trans ih

theorem standing_foldl_handle {a : Act} {sender : Endpoint} (packets : List Packet)
    (hphase : a.session.phase ≠ .idle) (hsender : sender ≠ a.session.relay) :
    (packets.foldl (fun a packet => a.handle sender packet) a).session.standing =
      packets.foldl Standing.heed a.session.standing := by
  induction packets generalizing a with
  | nil => rfl
  | cons packet packets ih =>
    have hstart : Act.Leads a.session (.event (.datagram sender [])) a a := .refl a
    obtain ⟨told, -, hsteps⟩ := hstart.handle packet ⟨[], rfl⟩ hphase
    have hrelay : (a.handle sender packet).session.relay = a.session.relay := hsteps.relay_eq
    rw [List.foldl_cons, ih (hsteps.phase_ne_idle hphase) (hrelay ▸ hsender),
      a.standing_handle fun _ _ => hsender, List.foldl_cons]

/-- What no seated peer sends is read packet by packet. -/
theorem standing_datagram {s : Session} {sender : Endpoint} (bytes : Bytes)
    (hsender : sender ≠ s.relay) (hseat : s.seats sender = false) :
    (s.move (.event (.datagram sender bytes))).session.standing =
      (s.completed sender bytes).foldl Standing.heed s.standing := by
  rw [move, happen, completed]
  split
  · rename_i hlistening
    dsimp only
    rw [receive_of_not_seats hseat]
    exact standing_foldl_handle _ (decide_eq_true_eq.mp hlistening).1 hsender
  · rfl

/-! ### Which packets change anything -/

namespace Standing

theorem heed_of_plain {packet : Packet} (hplain : isAuthoritative packet = false)
    (standing : Standing) : standing.heed packet = standing := by
  cases packet with
  | hello identity => exact nomatch hplain
  | connected info => exact nomatch hplain
  | reject removal => exact nomatch hplain
  | disconnect ip => exact nomatch hplain
  | scanReply info => exact nomatch hplain
  | overlayConfig config => exact nomatch hplain
  | networkError error => exact nomatch hplain
  | _ => rfl

theorem foldl_heed_of_plain {packets : List Packet}
    (hplain : ∀ packet ∈ packets, isAuthoritative packet = false) (standing : Standing) :
    packets.foldl heed standing = standing := by
  induction packets with
  | nil => rfl
  | cons packet packets ih =>
    obtain ⟨hpacket, hplain⟩ := List.forall_mem_cons.mp hplain
    rw [List.foldl_cons, heed_of_plain hpacket, ih hplain]

/-- Each kind that can change the standing has one that it changes. -/
theorem exists_heed_ne {packet : Packet} (hpacket : isAuthoritative packet = true)
    (blank : Standing) : ∃ standing : Standing, standing.heed packet ≠ standing := by
  cases packet with
  | hello identity =>
    exact ⟨{ blank with phase := .idle }, fun h => nomatch congrArg phase h⟩
  | connected info =>
    exact ⟨{ blank with inNetwork := false }, fun h => nomatch congrArg inNetwork h⟩
  | disconnect ip =>
    exact ⟨{ blank with inNetwork := true }, fun h => nomatch congrArg inNetwork h⟩
  | scanReply info =>
    exact ⟨{ blank with networks := [] }, fun h => nomatch congrArg networks h⟩
  | overlayConfig config =>
    exact ⟨{ blank with membership := none, overlay := none }, fun h => nomatch congrArg overlay h⟩
  | reject removal =>
    by_cases hnone : removal.reason = .none
    · refine ⟨{ blank with leaveReason := .user }, fun h => ?_⟩
      have hreason : removal.reason = .user := congrArg leaveReason h
      exact nomatch hnone.symm.trans hreason
    · exact ⟨{ blank with leaveReason := .none }, fun h => hnone (congrArg leaveReason h)⟩
  | networkError error =>
    cases error with
    | portUnreachable =>
      exact ⟨{ blank with p2p := true }, fun h => nomatch congrArg p2p h⟩
    | none =>
      exact ⟨{ blank with lastError := .unknown }, fun h => nomatch congrArg lastError h⟩
    | _ => exact ⟨{ blank with lastError := .none }, fun h => nomatch congrArg lastError h⟩
  | _ => exact nomatch hpacket

end Standing

/-- What a stranger's datagram makes of a session's standing is what the packets in it make of it,
one after the other. It stays as it is if none of them is of an authoritative kind, and those are
exactly the kinds that can change a standing. -/
theorem standing_of_stranger {s : Session} {sender : Endpoint} (hstranger : s.IsStranger sender)
    (bytes : Bytes) :
    (s.move (.event (.datagram sender bytes))).session.standing =
      (s.completed sender bytes).foldl Standing.heed s.standing ∧
    ((∀ packet ∈ s.completed sender bytes, isAuthoritative packet = false) →
      (s.move (.event (.datagram sender bytes))).session.standing = s.standing) ∧
    ∀ packet, isAuthoritative packet = false ↔
      ∀ standing : Standing, standing.heed packet = standing := by
  have hmove := standing_datagram bytes hstranger.relay hstranger.seat
  refine ⟨hmove, fun hplain => ?_, fun packet => ⟨Standing.heed_of_plain, fun hsame => ?_⟩⟩
  · rw [hmove, Standing.foldl_heed_of_plain hplain]
  · refine Bool.eq_false_iff.mpr fun hpacket => ?_
    obtain ⟨standing, hchanged⟩ := Standing.exists_heed_ne hpacket s.standing
    exact hchanged (hsame standing)

theorem phase_eq_of_standing {s t : Session} (h : s.standing = t.standing) : s.phase = t.phase :=
  congrArg Standing.phase h

/-- The session waits for the relay's handshake. -/
def greetingSample : Session :=
  (sample.after [sampleCall (.scan default)]).session

theorem isStranger_greetingSample : greetingSample.IsStranger samplePeer where
  relay := by decide
  seat := by decide +kernel
  host membership hmembership := by
    have hnone : greetingSample.membership.isNone = true := by decide +kernel
    rw [hmembership] at hnone
    exact nomatch hnone

/-- A stranger says that a scan has ended. -/
theorem standing_of_stranger_scanEnd :
    let bytes := Packet.scanEnd.encode.toOption.getD []
    greetingSample.IsStranger samplePeer ∧
      greetingSample.completed samplePeer bytes = [.scanEnd] ∧
      (greetingSample.move (.event (.datagram samplePeer bytes))).session.standing =
        greetingSample.standing := by
  intro bytes
  have hcompleted : greetingSample.completed samplePeer bytes = [.scanEnd] := by decide +kernel
  refine ⟨isStranger_greetingSample, hcompleted,
    (standing_of_stranger isStranger_greetingSample bytes).2.1 ?_⟩
  rw [hcompleted]
  exact List.forall_mem_singleton.mpr rfl

/-- A stranger greets, and the link is open. -/
theorem standing_of_stranger_hello :
    let bytes := (Packet.hello default).encode.toOption.getD []
    create {} (.ok []) (.ok sampleAddress) = .ok sample ∧
      greetingSample.IsStranger samplePeer ∧ greetingSample.phase = .connecting ∧
      (greetingSample.move (.event (.datagram samplePeer bytes))).session.phase = .connected ∧
      (greetingSample.move (.event (.datagram samplePeer bytes))).session.standing ≠
        greetingSample.standing := by
  intro bytes
  obtain ⟨encoding, hencode⟩ : ∃ encoding, (Packet.hello default).encode = .ok encoding :=
    ⟨_, Packet.encode_eq_ok_iff.mpr ⟨by decide +kernel, rfl⟩⟩
  have hbytes : bytes = encoding := congrArg (·.toOption.getD []) hencode
  have hphase : greetingSample.phase = .connecting := by decide +kernel
  have hconnected :
      (greetingSample.move (.event (.datagram samplePeer bytes))).session.phase = .connected := by
    rw [hbytes, move_datagram samplePeer hencode (by decide +kernel)
      (Option.isNone_iff_eq_none.mp (by decide +kernel)) (List.isEmpty_iff.mp (by decide +kernel))]
    decide +kernel
  refine ⟨rfl, isStranger_greetingSample, hphase, hconnected, fun hsame => ?_⟩
  have hkept := phase_eq_of_standing hsame
  rw [hconnected, hphase] at hkept
  exact nomatch hkept

end LocalPlay.Session

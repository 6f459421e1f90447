import LocalPlay.Proofs.Session.Confirmation
import LocalPlay.Proofs.Session.Departure
import LocalPlay.Proofs.Session.Hosting
import LocalPlay.Proofs.Session.Standing

/-!
# What is left of a proxy outside networks

Outside of networks, and with no call on its way into one, a session is to have no proxy: neither
one it hosts nor one it is the guest of. Hosted proxies are forgotten as they should be. Whose guest
the session is, is forgotten when a network is left, and only then. A relay that names a host before
it confirms a network leaves it named if the confirmation never comes. While a host is named traffic
goes to that host, and what the relay says about addresses is taken as said by it.
-/

namespace LocalPlay.Session

open Net Wire Overlay Timing

/-- The session is in no network, and no call goes on that is to end in one. -/
structure AtRest (s : Session) : Prop where
  network : s.inNetwork = false
  calls : ∀ w ∈ s.waiting, w.pause.joins = false

/-- What the notice says about there being a host that the relay has named. -/
def Notice.points? (relay : Endpoint) : Notice → Option Bool
  | handled sender (.proxyOffer offer) =>
    if sender = relay ∧ (Ip.ofField? offer.ip offer.family).isSome then some true else none
  | changed change => if change.connected then none else some false
  | _ => none

/-- The relay named a host, and no network was left since. -/
def Pointed (relay : Endpoint) (history : List Notice) : Prop :=
  latest (Notice.points? relay) history = some true

/-- Traffic goes to the relay, and an address from the relay is kept and confirmed to it. -/
structure Relayed (s : Session) : Prop where
  traffic : ∀ call traffic, s.phase ≠ .idle → ∃ refusal outcome,
    (({ session := s } : Act).sendTraffic call traffic).told =
      [.posted (some call) .relay traffic.toPacket refusal, .finished call outcome]
  address : ∀ config, ∃ refusal,
    (({ session := s } : Act).handle s.relay (.overlayConfig config)).session.overlay =
      some config ∧
    (({ session := s } : Act).handle s.relay (.overlayConfig config)).told =
      [.handled s.relay (.overlayConfig config),
        .posted none .relay (.overlayConfig config) refusal, .proxied (.configured config)]

/-! ### Who traffic goes to -/

theorem told_acceptOverlay {a : Act} {membership : Membership}
    (hsome : a.session.membership = some membership) (config : OverlayConfig) :
    ∃ refusal, (a.acceptOverlay config).told = a.told ++
      [.posted none (a.session.targetOf membership.guest.endpoint) (.overlayConfig config)
        refusal] := by
  rw [Act.acceptOverlay]
  split
  · rename_i other hother
    obtain rfl : membership = other := Option.some.inj (hsome.symm.trans hother)
    dsimp only
    rw [(Act.foldl_wake_eq (fun w : Waiting => .resume w.id) _ _).choose_spec]
    exact ⟨_, rfl⟩
  · rename_i hnone
    exact absurd (hsome.symm.trans hnone) (Option.some_ne_none _)

/-- Only a host that is named stands between the session and its relay. -/
theorem relayed_iff {s : Session} : s.Relayed ↔ s.membership = none := by
  constructor
  · intro h
    refine Option.eq_none_iff_forall_ne_some.mpr fun membership hsome => ?_
    obtain ⟨refusal, -, htold⟩ := h.address default
    have hhandle : ({ session := s } : Act).handle s.relay (.overlayConfig default) =
        ({ session := s, told := [.handled s.relay (.overlayConfig default)] } : Act).acceptOverlay
          default := rfl
    obtain ⟨refusal', hposted⟩ :=
      told_acceptOverlay (a := { session := s, told := _ }) hsome default
    rw [hhandle, hposted] at htold
    exact nomatch congrArg List.length htold
  · intro hnone
    refine ⟨fun call traffic hphase => ?_, fun config => ?_⟩
    · rw [Act.sendTraffic]
      dsimp only
      rw [if_neg hphase]
      split
      · rename_i membership hsome
        exact absurd (hsome.symm.trans hnone) (Option.some_ne_none _)
      · exact ⟨_, _, rfl⟩
    · have hhandle : ({ session := s } : Act).handle s.relay (.overlayConfig config) =
          ({ session := s, told := [.handled s.relay (.overlayConfig config)] } : Act).acceptOverlay
            config := rfl
      rw [hhandle, Act.acceptOverlay]
      split
      · rename_i membership hsome
        exact absurd (hsome.symm.trans hnone) (Option.some_ne_none _)
      · exact ⟨_, rfl, rfl⟩

/-! ### What packets say about it -/

theorem Notice.points?_eq_some_false {relay : Endpoint} {notice : Notice} :
    notice.points? relay = some false ↔ notice.isDeparture = true := by
  cases notice with
  | handled sender packet =>
    cases packet with
    | proxyOffer offer =>
      rw [points?]
      split
      · exact ⟨nofun, nofun⟩
      · exact ⟨nofun, nofun⟩
    | _ => exact ⟨nofun, nofun⟩
  | changed change =>
    rw [points?, isDeparture]
    cases change.connected with
    | true => exact ⟨nofun, nofun⟩
    | false => exact ⟨fun _ => rfl, fun _ => rfl⟩
  | _ => exact ⟨nofun, nofun⟩

/-- Where no host is named it only matters whether a network is left. -/
theorem latest_points?_of_not_named {relay : Endpoint} {more : List Notice}
    (hmore : ∀ notice ∈ more, notice.points? relay ≠ some true) :
    latest (Notice.points? relay) more =
      if more.filter Notice.isDeparture = [] then none else some false := by
  cases hlatest : latest (Notice.points? relay) more with
  | none =>
    have hsilent := List.findSome?_eq_none_iff.mp hlatest
    have hnone : more.filter Notice.isDeparture = [] := by
      refine List.filter_eq_nil_iff.mpr fun notice hmem hdeparture => ?_
      have hpoints := hsilent notice (List.mem_reverse.mpr hmem)
      exact nomatch hpoints.symm.trans (Notice.points?_eq_some_false.mpr hdeparture)
    rw [if_pos hnone]
  | some named =>
    obtain ⟨notice, hmem, hpoints⟩ := List.exists_of_findSome?_eq_some hlatest
    have hmem := List.mem_reverse.mp hmem
    cases named with
    | true => exact absurd hpoints (hmore notice hmem)
    | false =>
      refine (if_neg fun hnone => ?_).symm
      exact List.filter_eq_nil_iff.mp hnone notice hmem (Notice.points?_eq_some_false.mp hpoints)

/-- Unless the relay names a host, only leaving a network changes whether there is one. -/
theorem Standing.isSome_membership_heed (standing : Standing) (packet : Packet) :
    (standing.heed packet).membership.isSome = (standing.membership.isSome &&
      !(standing.inNetwork && !(standing.heed packet).inNetwork)) := by
  have hsame {heeded : Standing}
      (hmembership : heeded.membership.isSome = standing.membership.isSome)
      (hnetwork : heeded.inNetwork = standing.inNetwork) :
      heeded.membership.isSome = (standing.membership.isSome &&
        !(standing.inNetwork && !heeded.inNetwork)) := by
    rw [hmembership, hnetwork, Bool.and_not_self, Bool.not_false, Bool.and_true]
  cases packet with
  | connected info =>
    show _ = (_ && !(_ && !true))
    rw [Bool.not_true, Bool.and_false, Bool.not_false, Bool.and_true]
    rfl
  | disconnect ip =>
    rw [heed, leave]
    split
    · rename_i hnetwork
      rw [hnetwork]
      exact (Bool.and_false _).symm
    · exact hsame rfl rfl
  | overlayConfig config =>
    rw [heed]
    split
    · rename_i membership hmembership
      exact hsame (by rw [hmembership]; rfl) rfl
    · exact hsame rfl rfl
  | networkError error =>
    cases error with
    | _ => exact hsame rfl rfl
  | _ => exact hsame rfl rfl

/-! ### Whose guest the session is -/

/-- Membership and history agree on whether there is a host that the relay has named. -/
structure Guided (relay : Endpoint) (history : List Notice) (s : Session) : Prop where
  relay_eq : s.relay = relay
  named : s.membership.isSome = true ↔ Pointed relay history

namespace Guided

variable {relay : Endpoint} {history more : List Notice} {origin s t : Session} {m : Move}

theorem quiet (h : Guided relay history s) (hrelay : t.relay = s.relay)
    (hmembership : t.membership.isSome = s.membership.isSome)
    (hmore : ∀ notice ∈ more, notice.points? relay = none) : Guided relay (history ++ more) t := by
  refine ⟨hrelay.trans h.relay_eq, ?_⟩
  rw [hmembership, h.named, Pointed, Pointed, latest_append_of_silent hmore]

theorem forgotten (hrelay : t.relay = relay) (hmembership : t.membership = none)
    (reason : LeaveReason) : Guided relay (history ++ [.changed (.left reason)]) t := by
  refine ⟨hrelay, ?_⟩
  rw [hmembership, Pointed, latest_concat]
  exact ⟨nofun, nofun⟩

theorem step (h : Guided relay history s) (hstep : Step origin m s t more)
    (hmove : ∀ sender bytes, m ≠ .event (.datagram sender bytes))
    (hmore : ∀ sender packet, .handled sender packet ∉ more) :
    Guided relay (history ++ more) t := by
  cases hstep with
  | accompany membership hdatagram =>
    obtain ⟨sender, bytes, hdatagram⟩ := hdatagram
    exact absurd hdatagram (hmove sender bytes)
  | leave =>
    refine forgotten ?_ rfl _
    exact h.relay_eq
  | say notice hnotice =>
    refine h.quiet rfl rfl (List.forall_mem_singleton.mpr ?_)
    cases notice with
    | handled sender packet => exact absurd (List.mem_singleton_self _) (hmore sender packet)
    | changed change => exact nomatch hnotice
    | _ => rfl
  | openLink =>
    exact h.quiet rfl rfl (List.forall_mem_cons.mpr ⟨rfl, List.forall_mem_singleton.mpr rfl⟩)
  | closeLink => exact h.quiet rfl rfl (List.forall_mem_singleton.mpr rfl)
  | updatePassphrase => exact h.quiet rfl rfl (List.forall_mem_singleton.mpr rfl)
  | ask => exact h.quiet rfl rfl (List.forall_mem_singleton.mpr rfl)
  | goOn => exact h.quiet rfl rfl (List.forall_mem_singleton.mpr rfl)
  | confirm => exact h.quiet rfl rfl (List.forall_mem_singleton.mpr rfl)
  | settle => exact h.quiet rfl rfl (List.forall_mem_singleton.mpr rfl)
  | greet sender identity => exact absurd (List.mem_singleton_self _) (hmore sender _)
  | join sender info => exact absurd List.mem_cons_self (hmore sender _)
  | syncNetwork sender info => exact absurd List.mem_cons_self (hmore sender _)
  | reject sender removal => exact absurd (List.mem_singleton_self _) (hmore sender _)
  | _ => exact h.quiet rfl rfl fun _ => nofun

theorem steps (h : Guided relay history s) (hsteps : Steps origin m s t more)
    (hmove : ∀ sender bytes, m ≠ .event (.datagram sender bytes))
    (hmore : ∀ sender packet, .handled sender packet ∉ more) :
    Guided relay (history ++ more) t := by
  induction hsteps with
  | refl =>
    rw [List.append_nil]
    exact h
  | tail _ hstep ih =>
    rw [← List.append_assoc]
    refine (ih fun sender packet hmem => ?_).step hstep hmove fun sender packet hmem => ?_
    · exact hmore sender packet (List.mem_append_left _ hmem)
    · exact hmore sender packet (List.mem_append_right _ hmem)

theorem whole (h : Guided relay history s) (hopened : s.opened? m = none) :
    Guided relay (history ++ (s.move m).told) (s.move m).session := by
  by_cases hdatagram : ∃ sender bytes, m = .event (.datagram sender bytes)
  · obtain ⟨sender, bytes, rfl⟩ := hdatagram
    obtain ⟨hosted, ready, notices, hmove⟩ := move_of_not_opened hopened
    rw [hmove]
    refine h.quiet rfl rfl fun notice hmem => ?_
    obtain ⟨_, _, rfl⟩ := List.mem_map.mp hmem
    rfl
  · refine h.steps (steps_move s m) (fun sender bytes hm => hdatagram ⟨sender, bytes, hm⟩) ?_
    exact not_handled_of_not_opened hopened

theorem leave {a : Act} (h : Guided relay (history ++ a.told) a.session) :
    Guided relay (history ++ a.leave.told) a.leave.session := by
  cases hnetwork : a.session.inNetwork with
  | false =>
    rw [Act.leave, if_neg (by rw [hnetwork]; exact Bool.false_ne_true)]
    exact h
  | true =>
    obtain ⟨ready, notices, hleave⟩ := Act.leave_eq hnetwork
    rw [hleave, ← List.append_assoc]
    refine forgotten ?_ rfl _
    exact h.relay_eq

/-- The relay says whose guest the session is to be. If the host cannot be reached, any network is
left. -/
theorem offered {a : Act} (h : Guided relay (history ++ a.told) a.session) (offer : ProxyOffer) :
    Guided relay (history ++ (a.handle relay (.proxyOffer offer)).told)
      (a.handle relay (.proxyOffer offer)).session := by
  have hjoin : a.handle relay (.proxyOffer offer) =
      (a.tell (.handled relay (.proxyOffer offer))).joinProxy offer := if_pos h.relay_eq.symm
  rw [hjoin, Act.joinProxy]
  split
  · rename_i hnowhere
    rw [Act.tell, ← List.append_assoc]
    refine h.quiet rfl rfl (List.forall_mem_singleton.mpr ?_)
    rw [Notice.points?, hnowhere]
    exact if_neg fun hnamed => absurd hnamed.2 Bool.false_ne_true
  · rename_i ip hip
    dsimp only
    generalize hpost : Act.post _ none _ (.proxyOffer offer) = named
    have hnamed : Guided relay (history ++ named.told) named.session := by
      rw [← hpost]
      refine ⟨h.relay_eq, ⟨fun _ => ?_, fun _ => rfl⟩⟩
      have hpoints : (Notice.handled relay (.proxyOffer offer)).points? relay = some true :=
        if_pos ⟨rfl, by rw [hip]; rfl⟩
      show latest _ (history ++ (a.told ++ [.handled relay (.proxyOffer offer)] ++ [_])) = _
      rw [← List.append_assoc, latest_concat, ← List.append_assoc, latest_concat, hpoints]
      rfl
    split
    · exact hnamed.leave
    · exact hnamed

/-- Nobody else says so, and other packets at most make the session leave its network. -/
theorem handled {a : Act} {sender : Endpoint} {packet : Packet}
    (h : Guided relay (history ++ a.told) a.session)
    (hoffer : ∀ offer, packet = .proxyOffer offer → sender ≠ relay)
    (hdeparts : a.Departs history (a.handle sender packet))
    (hrelay : (a.handle sender packet).session.relay = a.session.relay) :
    Guided relay (history ++ (a.handle sender packet).told) (a.handle sender packet).session := by
  obtain ⟨more, htold, hfilter⟩ := hdeparts
  have hmembership : (a.handle sender packet).session.membership.isSome =
      (a.session.membership.isSome &&
        !(a.session.inNetwork && !(a.handle sender packet).session.inNetwork)) := by
    have hheed := a.session.standing.isSome_membership_heed packet
    rw [← a.standing_handle fun offer hpacket => h.relay_eq ▸ hoffer offer hpacket] at hheed
    exact hheed
  have hunnamed : ∀ notice ∈ more, notice.points? relay ≠ some true := by
    obtain ⟨rest, hrest, hquiet⟩ := a.told_handle sender packet
    obtain rfl := List.append_cancel_left (htold.symm.trans hrest)
    refine List.forall_mem_cons.mpr ⟨?_, fun notice hmem => ?_⟩
    · cases packet with
      | proxyOffer offer =>
        rw [Notice.points?, if_neg fun hnamed => hoffer offer rfl hnamed.1]
        exact nofun
      | _ => exact nofun
    · cases notice with
      | handled source other => exact absurd hmem (hquiet source other)
      | changed change =>
        rw [Notice.points?]
        split
        · exact nofun
        · exact nofun
      | _ => exact nofun
  have hlatest := latest_points?_of_not_named hunnamed
  refine ⟨hrelay.trans h.relay_eq, ?_⟩
  rw [hmembership, htold, ← List.append_assoc, Pointed, latest_append, hlatest, hfilter]
  cases hleft : a.session.inNetwork && !(a.handle sender packet).session.inNetwork with
  | false =>
    rw [Bool.not_false, Bool.and_true, h.named]
    rfl
  | true =>
    rw [Bool.not_true, Bool.and_false]
    exact ⟨nofun, nofun⟩

end Guided

/-! ### Sessions at rest -/

/-- What holds at every moment at which nothing is half done. -/
structure Tidy (relay : Endpoint) (history : List Notice) (s : Session) : Prop where
  hosting : s.Hosting
  guided : Guided relay history s
  reason : s.leaveReason = reasonGiven history

theorem Stage.tidy {relay : Endpoint} {history : List Notice} {s : Session} {m : Move} {a b : Act}
    (h : s.Stage m a b) (ha : Tidy relay (history ++ a.told) a.session) :
    Tidy relay (history ++ b.told) b.session := by
  have hdeparts := h.departs ha.reason
  obtain ⟨told, htold, hsteps⟩ := h.leads
  refine ⟨h.hosting ha.hosting, ?_, ?_⟩
  · cases h with
    | whole hopened =>
      have hguided := ha.guided
      rw [List.append_nil] at hguided
      exact hguided.whole hopened
    | reorder streams => exact ⟨ha.guided.relay_eq, ha.guided.named⟩
    | @packet a sender bytes packet hmove hphase =>
      by_cases hoffer : ∃ offer, packet = .proxyOffer offer ∧ sender = relay
      · obtain ⟨offer, rfl, rfl⟩ := hoffer
        exact ha.guided.offered offer
      · refine ha.guided.handled (fun offer hpacket hsender => ?_) hdeparts hsteps.relay_eq
        exact hoffer ⟨offer, hpacket, hsender⟩
  · rw [htold, ← List.append_assoc]
    exact hsteps.leaveReason_eq ha.reason

/-- At rest no proxy is hosted. And the session is nobody's guest, so that traffic goes to the relay
and addresses from the relay are kept and confirmed to it, exactly if a network was left since the
relay last named a host. -/
theorem relayed_at_rest_iff {settings : Settings} {interfaces : Interfaces}
    {localAddress : Except IoError Endpoint} {s : Session}
    (hcreate : create settings interfaces localAddress = .ok s) (moves : List Move) (m : Move) :
    ∀ a ∈ (s.after moves).session.course m, a.session.AtRest →
      a.session.hosted = none ∧
      (a.session.membership = none ↔ ¬ Pointed s.relay ((s.after moves).told ++ a.told)) ∧
      (a.session.Relayed ↔ ¬ Pointed s.relay ((s.after moves).told ++ a.told)) := by
  have htidy : ∀ a ∈ (s.after moves).session.course m,
      Tidy s.relay ((s.after moves).told ++ a.told) a.session := by
    refine course_induction ?_ (fun hstage => hstage.tidy) moves m
    obtain ⟨relay, rfl⟩ := create_eq hcreate
    refine ⟨⟨⟨fun _ => nofun, .nil⟩, nofun, nofun⟩, ⟨rfl, ⟨nofun, nofun⟩⟩, rfl⟩
  intro a ha hrest
  obtain ⟨hhosting, hguided, -⟩ := htidy a ha
  have hmembership :
      a.session.membership = none ↔ ¬ Pointed s.relay ((s.after moves).told ++ a.told) := by
    rw [← hguided.named, Bool.not_eq_true, Option.isSome_eq_false_iff, Option.isNone_iff_eq_none]
  refine ⟨?_, hmembership, relayed_iff.trans hmembership⟩
  refine Option.isNone_iff_eq_none.mp (Option.isSome_eq_false_iff.mp ?_)
  refine Bool.eq_false_iff.mpr fun hhosted => ?_
  rcases hhosting.hosted hhosted with hnetwork | ⟨w, hw, hhosts⟩
  · exact nomatch hrest.network.symm.trans hnetwork
  · exact nomatch (hrest.calls w hw).symm.trans (Pause.joins_of_hosts hhosts)

/-- The relay names the peer as the host of a proxy. -/
def sampleNaming : Packet :=
  .proxyOffer ⟨samplePeer.ip.toField.1, samplePeer.ip.toField.2, samplePeer.port, .zero⟩

theorem atRest_of_all {s : Session} (hnetwork : s.inNetwork = false)
    (hwaiting : s.waiting.all (!·.pause.joins) = true) : s.AtRest where
  network := hnetwork
  calls w hw := by simpa using List.all_eq_true.mp hwaiting w hw

/-- A host is named in a network, and the network is left. -/
theorem relayed_at_rest_of_departure :
    let moves := [sampleCall (.scan default), sampleDatagram (.connected default),
      sampleDatagram sampleNaming] ++ [.event (.call .leaveNetwork)]
    create {} (.ok []) (.ok sampleAddress) = .ok sample ∧ (sample.after moves).session.AtRest ∧
      ¬ Pointed sample.relay (sample.after moves).told ∧
      (sample.after moves).session.hosted = none ∧ (sample.after moves).session.Relayed := by
  intro moves
  have hcreate : create {} (.ok []) (.ok sampleAddress) = .ok sample := rfl
  have hjoin : sample.after ([sampleCall (.scan default)] ++
      [sampleDatagram (.connected default)]) = _ :=
    after_sampleDatagram _ (by decide +kernel) (by decide +kernel) (by decide +kernel)
      (by decide +kernel)
  have hname : sample.after [sampleCall (.scan default), sampleDatagram (.connected default),
      sampleDatagram sampleNaming] = _ :=
    after_sampleDatagram ([sampleCall (.scan default)] ++ [sampleDatagram (.connected default)])
      (by decide +kernel) (by rw [hjoin]; decide +kernel) (by rw [hjoin]; decide +kernel)
      (by rw [hjoin]; decide +kernel)
  have hrest : (sample.after moves).session.AtRest := by
    refine atRest_of_all ?_ ?_
    · rw [after_append, hname, hjoin]
      decide +kernel
    · rw [after_append, hname, hjoin]
      decide +kernel
  have hleft : ¬ Pointed sample.relay (sample.after moves).told := by
    rw [Pointed, after_append, hname, hjoin]
    decide +kernel
  obtain ⟨a, ha, hsession, htold⟩ := (sample.after moves).session.exists_course_start (.reach 0)
  obtain ⟨hhosted, -, hrelayed⟩ :=
    relayed_at_rest_iff hcreate moves (.reach 0) a ha (by rw [hsession]; exact hrest)
  rw [hsession] at hhosted hrelayed
  rw [htold, List.append_nil] at hrelayed
  exact ⟨hcreate, hrest, hleft, hhosted, hrelayed.mpr hleft⟩

/-- The relay names a host to a station that asks to join, and the confirmation never comes. -/
def namedRun : List Move :=
  joiningRun ++ [sampleDatagram sampleNaming] ++ [.reach 4000, .turn (.resume 0)]

/-- The station has given up, and is the guest of the host all the same. -/
theorem guest_at_rest :
    create {} (.ok []) (.ok sampleAddress) = .ok sample ∧
      (sample.after namedRun).session.AtRest ∧ (sample.after namedRun).session.ready = [] ∧
      (sample.after namedRun).session.membership.map (·.guest.endpoint) = some samplePeer ∧
      ¬ (sample.after namedRun).session.Relayed := by
  have hname : sample.after (joiningRun ++ [sampleDatagram sampleNaming]) = _ :=
    after_sampleDatagram _ (by decide +kernel) (by decide +kernel) (by decide +kernel)
      (by decide +kernel)
  have hguest : (sample.after namedRun).session.membership.map (·.guest.endpoint) =
      some samplePeer := by
    rw [namedRun, after_append, hname]
    decide +kernel
  refine ⟨rfl, atRest_of_all ?_ ?_, ?_, hguest, fun hrelayed => ?_⟩
  · rw [namedRun, after_append, hname]
    decide +kernel
  · rw [namedRun, after_append, hname]
    decide +kernel
  · rw [namedRun, after_append, hname]
    decide +kernel
  · rw [relayed_iff.mp hrelayed] at hguest
    exact nomatch hguest

end LocalPlay.Session

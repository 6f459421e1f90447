import LocalPlay.Proofs.Overlay.Forwarding
import LocalPlay.Proofs.Overlay.Seating
import Mathlib.Data.List.Perm.Basic

/-!
# Lost seats and what the relay hears of them

A seat is lost in one of five ways, `Host.Loses`, each of which can be seen before the move from the
host and the move alone. The relay is told of two of them: the host took the seat away, or the peer
in it said something that made no sense. Of the others it knows already, or it is not to know.

What a move says of its losses is complete, `Balanced`: the seats it names are those that are lost,
for the reasons there are; the relay is told of exactly those it is to hear of; and the seats there
were and those granted are the seats there are and those lost. Added up over a run the last says
that no seat is lost twice, since every seat is granted under a number of its own. It is what makes
all later news of a lost seat void, be it the end of its worker or one more request to take it away.
-/

namespace LocalPlay.Overlay

open Net Wire

/-! ### What is said -/

/-- Who lost a seat and how, if the notice is about that. -/
def Notice.loss? : Notice → Option (Seat × Departure)
  | left seat why => some (seat, why)
  | _ => none

/-- The packet that was handed to the link for the relay, if there was one. -/
def Notice.report? : Notice → Option Packet
  | posted .relay packet _ => some packet
  | _ => none

def losses (notices : List Notice) : List (Seat × Departure) :=
  notices.filterMap Notice.loss?

def reports (notices : List Notice) : List Packet :=
  notices.filterMap Notice.report?

def granted (notices : List Notice) : List Seat :=
  (admissions notices).map fun (_, _, seat) => seat

/-- What the relay is to hear of a loss. -/
def Departure.report? (why : Departure) (seat : Seat) : Option Packet :=
  match why with
  | unregistered | corrupt => some (.proxyState ⟨seat.virtualIp, false⟩)
  | announced | replaced | shutdown => none

theorem losses_append (notices more : List Notice) :
    losses (notices ++ more) = losses notices ++ losses more :=
  List.filterMap_append

theorem reports_append (notices more : List Notice) :
    reports (notices ++ more) = reports notices ++ reports more :=
  List.filterMap_append

theorem granted_append (notices more : List Notice) :
    granted (notices ++ more) = granted notices ++ granted more := by
  rw [granted, admissions_append, List.map_append]
  rfl

theorem mem_granted {notices : List Notice} {applicant : Nat} {token : ProxyToken} {seat : Seat}
    (h : .admitted applicant token seat ∈ notices) : seat ∈ granted notices :=
  List.mem_map.mpr ⟨_, mem_admissions.mpr h, rfl⟩

theorem mem_losses {notices : List Notice} {seat : Seat} {why : Departure} :
    (seat, why) ∈ losses notices ↔ .left seat why ∈ notices := by
  rw [losses, List.mem_filterMap]
  constructor
  · rintro ⟨notice, hmem, hnotice⟩
    cases notice with
    | left =>
      obtain ⟨rfl, rfl⟩ := Option.some.inj hnotice
      exact hmem
    | _ => exact nomatch hnotice
  · exact fun hmem => ⟨_, hmem, rfl⟩

theorem losses_map_left (why : Departure) (seats : List Seat) :
    losses (seats.map (.left · why)) = seats.map (·, why) := by
  rw [losses, List.filterMap_map, ← List.filterMap_eq_map]
  rfl

theorem reports_map_left (why : Departure) (seats : List Seat) :
    reports (seats.map (.left · why)) = [] :=
  List.filterMap_eq_nil_iff.mpr (List.forall_mem_map.mpr fun _ _ => rfl)

theorem granted_map_left (why : Departure) (seats : List Seat) :
    granted (seats.map (.left · why)) = [] := by
  rw [granted, admissions_eq_nil (List.forall_mem_map.mpr fun _ _ => rfl)]
  rfl

/-- The notice is about no seat. -/
def Notice.Aside (notice : Notice) : Prop :=
  notice.loss? = none ∧ notice.report? = none ∧ notice.admission? = none

section Aside

variable {notices : List Notice} (h : ∀ notice ∈ notices, notice.Aside)
include h

theorem losses_of_aside : losses notices = [] :=
  List.filterMap_eq_nil_iff.mpr fun notice hmem => (h notice hmem).1

theorem reports_of_aside : reports notices = [] :=
  List.filterMap_eq_nil_iff.mpr fun notice hmem => (h notice hmem).2.1

theorem granted_of_aside : granted notices = [] := by
  rw [granted, admissions_eq_nil fun notice hmem => (h notice hmem).2.2]
  rfl

end Aside

theorem aside_of_mem_deliveries {r : Registry} {link : Link} {seat : Option Nat} {sender : UInt32}
    {traffic : Traffic} : ∀ notice ∈ r.deliveries link seat sender traffic, notice.Aside := by
  intro notice hmem
  rw [Registry.deliveries, List.mem_cons] at hmem
  rcases hmem with rfl | hmem
  · exact ⟨rfl, rfl, rfl⟩
  · cases hstamp : traffic.stamp? sender with
    | none => simp [hstamp] at hmem
    | some stamped =>
      rw [hstamp] at hmem
      obtain ⟨endpoint, -, rfl⟩ := List.mem_map.mp hmem
      exact ⟨rfl, rfl, rfl⟩

theorem aside_of_mem_forwarding {host : Host} {link : Link} {id : Nat} {worker : Worker}
    {datagram : Bytes} : ∀ notice ∈ host.forwarding link id worker datagram, notice.Aside := by
  intro notice hmem
  obtain ⟨_, -, hmem⟩ := List.mem_flatMap.mp hmem
  exact aside_of_mem_deliveries notice hmem

/-! ### How seats are lost -/

theorem Registry.Apart.seatAt?_eq {r : Registry} (h : r.Apart) {seat : Seat}
    (hseat : seat ∈ r.seats) : r.seatAt? seat.endpoint = some seat := by
  cases hfind : r.seatAt? seat.endpoint with
  | none => exact absurd (beq_self_eq_true seat.endpoint) (List.find?_eq_none.mp hfind seat hseat)
  | some other =>
    have hother := List.mem_of_find?_eq_some hfind
    rw [List.inj_on_of_nodup_map h hother hseat (key_of_find? hfind)]

namespace Host

/-- The ways in which a move makes a peer lose the seat that it has. -/
inductive Loses (host : Host) (seat : Seat) : Move → Departure → Prop
  /-- The relay says that its virtual address is gone. -/
  | announced {presence : ProxyPresence} (habsent : presence.present = false)
      (hip : presence.ip = seat.virtualIp) : Loses host seat (.applyPresence presence) .announced
  /-- Somebody is let in from its endpoint. -/
  | replaced {now : Nat} {link : Link} {applicant : Nat} {token : ProxyToken} {newcomer : Seat}
      (hadmitted : .admitted applicant token newcomer ∈ (host.consider now link applicant).notices)
      (hendpoint : newcomer.endpoint = seat.endpoint) :
    Loses host seat (.perform now link (.consider applicant)) .replaced
  | unregistered {link : Link} : Loses host seat (.unregister link seat.endpoint) .unregistered
  /-- Its worker reads a datagram that makes no sense. -/
  | corrupt {now : Nat} {link : Link} {worker : Worker} {datagram : Bytes} {inbox : List Bytes}
      (hworker : host.worker? seat.id = some worker) (hworking : worker.dismissed = false)
      (hinbox : worker.inbox = datagram :: inbox)
      (herror : (worker.stream.feed datagram).error.isSome = true) :
    Loses host seat (.perform now link (.serve seat.id)) .corrupt
  | shutdown : Loses host seat .shutdown .shutdown

/-- What the move says of seats, and which are there after it, agree with what was to come. -/
structure Balanced (host : Host) (move : Move) (scene : Scene) : Prop where
  lost : ∀ seat why, (seat, why) ∈ losses scene.notices ↔
    seat ∈ host.registry.seats ∧ host.Loses seat move why
  told : reports scene.notices =
    (losses scene.notices).filterMap fun (seat, why) => why.report? seat
  seats : ((losses scene.notices).map (·.1) ++ scene.host.registry.seats).Perm
    (host.registry.seats ++ granted scene.notices)

variable {host : Host}

/-- What is not about seats. -/
theorem Balanced.ofAside {move : Move} {scene : Scene}
    (hnotices : ∀ notice ∈ scene.notices, notice.Aside)
    (hseats : scene.host.registry.seats = host.registry.seats)
    (hnone : ∀ seat ∈ host.registry.seats, ∀ why, ¬ host.Loses seat move why) :
    host.Balanced move scene where
  lost seat why := by
    rw [losses_of_aside hnotices]
    exact ⟨nofun, fun ⟨hseat, hlost⟩ => (hnone seat hseat why hlost).elim⟩
  told := by
    rw [losses_of_aside hnotices, reports_of_aside hnotices]
    rfl
  seats := by
    rw [losses_of_aside hnotices, granted_of_aside hnotices, hseats, List.append_nil]
    exact .refl _

/-- All that are lost are lost in one way. -/
theorem Balanced.ofLost {move : Move} {scene : Scene} (why : Departure) (lost : List Seat)
    (hlosses : losses scene.notices = lost.map (·, why))
    (hreports : reports scene.notices = lost.filterMap why.report?)
    (hseats : (lost ++ scene.host.registry.seats).Perm
      (host.registry.seats ++ granted scene.notices))
    (hlost : ∀ seat cause, seat ∈ lost ∧ why = cause ↔
      seat ∈ host.registry.seats ∧ host.Loses seat move cause) :
    host.Balanced move scene where
  lost seat cause := by
    rw [hlosses, ← hlost, List.mem_map]
    constructor
    · rintro ⟨_, hseat, ⟨⟩⟩
      exact ⟨hseat, rfl⟩
    · rintro ⟨hseat, rfl⟩
      exact ⟨seat, hseat, rfl⟩
  told := by
    rw [hlosses, hreports, List.filterMap_map]
    rfl
  seats := by
    rw [hlosses, List.map_map]
    exact (List.map_id lost).symm ▸ hseats

/-- All that are lost are closed one after the other, and the relay is not told. -/
theorem Balanced.ofClosed {move : Move} {scene : Scene} {why : Departure} {lost : List Seat}
    {before : List Notice} (hbefore : ∀ notice ∈ before, notice.Aside)
    (hnotices : scene.notices = before ++ lost.map (.left · why))
    (hsilent : ∀ seat, why.report? seat = none)
    (hseats : (lost ++ scene.host.registry.seats).Perm host.registry.seats)
    (hlost : ∀ seat cause, seat ∈ lost ∧ why = cause ↔
      seat ∈ host.registry.seats ∧ host.Loses seat move cause) :
    host.Balanced move scene := by
  apply Balanced.ofLost why lost ?_ ?_ ?_ hlost
  · rw [hnotices, losses_append, losses_of_aside hbefore, losses_map_left, List.nil_append]
  · rw [hnotices, reports_append, reports_of_aside hbefore, reports_map_left, List.append_nil]
    exact (List.filterMap_eq_nil_iff.mpr fun seat _ => hsilent seat).symm
  · rw [hnotices, granted_append, granted_of_aside hbefore, granted_map_left, List.append_nil,
      List.append_nil]
    exact hseats

/-! ### Calls -/

theorem balanced_applyPresence (presence : ProxyPresence) :
    host.Balanced (.applyPresence presence) (host.applyPresence presence) := by
  rw [applyPresence]
  by_cases hpresent : presence.present = true
  · rw [if_pos hpresent]
    refine .ofAside (List.forall_mem_nil _) rfl fun seat _ why hlost => ?_
    cases hlost with
    | announced habsent => exact Bool.false_ne_true (habsent.symm.trans hpresent)
  · rw [if_neg hpresent, Scene.closeAll_eq]
    refine .ofClosed (List.forall_mem_map.mpr fun _ _ => ⟨rfl, rfl, rfl⟩) rfl (fun _ => rfl) ?_ ?_
    · exact List.filter_append_perm _ host.registry.seats
    · intro seat cause
      rw [List.mem_filter, beq_iff_eq]
      constructor
      · rintro ⟨⟨hseat, hip⟩, rfl⟩
        exact ⟨hseat, .announced (eq_false_of_ne_true hpresent) hip.symm⟩
      · rintro ⟨hseat, hlost⟩
        cases hlost with
        | announced _ hip => exact ⟨⟨hseat, hip.symm⟩, rfl⟩

theorem balanced_shutdown : host.Balanced .shutdown host.shutdown := by
  rw [shutdown, Scene.closeAll_eq]
  refine .ofClosed (List.forall_mem_map.mpr fun _ _ => ⟨rfl, rfl, rfl⟩) rfl (fun _ => rfl) ?_ ?_
  · exact List.Perm.of_eq (List.append_nil _)
  · intro seat cause
    constructor
    · rintro ⟨hseat, rfl⟩
      exact ⟨hseat, .shutdown⟩
    · rintro ⟨hseat, hlost⟩
      cases hlost with
      | shutdown => exact ⟨hseat, rfl⟩

theorem balanced_receive (endpoint : Endpoint) (datagram : Bytes) :
    host.Balanced (.receive endpoint datagram) (host.receive endpoint datagram).2 := by
  rcases host.receive_cases endpoint datagram with hdropped | ⟨_, _, _, _, _, hqueued⟩
  · rw [hdropped]
    exact .ofAside (List.forall_mem_nil _) rfl fun _ _ _ => nofun
  · rw [hqueued]
    exact .ofAside (List.forall_mem_singleton.mpr ⟨rfl, rfl, rfl⟩) rfl fun _ _ _ => nofun

/-- What is said when a seat is taken away and the relay told. -/
theorem Balanced.ofExpelled {move : Move} {scene : Scene} {why : Departure} {seat : Seat}
    (before : List Notice) {refusal : Option SendError} (hseat : seat ∈ host.registry.seats)
    (hbefore : ∀ notice ∈ before, notice.Aside)
    (hnotices : scene.notices = before ++ [.left seat why,
      .posted .relay (.proxyState ⟨seat.virtualIp, false⟩) refusal])
    (htold : why.report? seat = some (.proxyState ⟨seat.virtualIp, false⟩))
    (hseats : scene.host.registry.seats = host.registry.seats.erase seat)
    (hlost : ∀ other cause, other = seat ∧ why = cause ↔
      other ∈ host.registry.seats ∧ host.Loses other move cause) :
    host.Balanced move scene := by
  apply Balanced.ofLost why [seat]
  · rw [hnotices, losses_append, losses_of_aside hbefore]
    rfl
  · rw [hnotices, reports_append, reports_of_aside hbefore, List.filterMap_cons_some htold]
    rfl
  · rw [hnotices, granted_append, granted_of_aside hbefore, hseats]
    exact ((List.perm_cons_erase hseat).symm).trans (List.Perm.of_eq (List.append_nil _).symm)
  · intro other cause
    rw [List.mem_singleton]
    exact hlost other cause

theorem balanced_unregister (hseated : host.Seated) (hapart : host.registry.Apart) (link : Link)
    (endpoint : Endpoint) :
    host.Balanced (.unregister link endpoint) (host.unregister link endpoint).2 := by
  rw [unregister]
  cases hfind : host.registry.seatAt? endpoint with
  | none =>
    refine .ofAside (List.forall_mem_nil _) rfl fun seat hseat why hlost => ?_
    cases hlost with
    | unregistered =>
      exact (Option.some_ne_none _ ((hapart.seatAt?_eq hseat).symm.trans hfind)).elim
  | some seat =>
    have hseat := List.mem_of_find?_eq_some hfind
    obtain rfl : seat.endpoint = endpoint := key_of_find? hfind
    dsimp only
    rw [Scene.expel_eq, Registry.removeSeat_eq (hseated.seat?_eq hseat)]
    refine .ofExpelled [] hseat (List.forall_mem_nil _) rfl rfl rfl fun other cause => ?_
    constructor
    · rintro ⟨rfl, rfl⟩
      exact ⟨hseat, .unregistered⟩
    · rintro ⟨hother, hlost⟩
      generalize hendpoint : seat.endpoint = endpoint at hlost
      cases hlost with
      | unregistered =>
        have hsame := hapart.seatAt?_eq hother
        rw [← hendpoint, hfind] at hsame
        exact ⟨(Option.some.inj hsame).symm, rfl⟩

/-! ### Jobs -/

/-- Who is found at the endpoint is taken out. -/
theorem find?_append_eraseP_perm {α : Type} [BEq α] [LawfulBEq α] (p : α → Bool) (xs : List α) :
    ((xs.find? p).toList ++ xs.eraseP p).Perm xs := by
  cases hfind : xs.find? p with
  | none =>
    rw [List.eraseP_of_forall_not fun x hx => List.find?_eq_none.mp hfind x hx]
    exact .refl _
  | some x =>
    rw [eraseP_of_find? hfind]
    exact (List.perm_cons_erase (List.mem_of_find?_eq_some hfind)).symm

theorem balanced_letIn (hapart : host.registry.Apart) {now : Nat} {link : Link}
    {applicant : Applicant} {claim : Registry.Claim}
    (hclaim : host.registry.claim? host.grants applicant.endpoint applicant.presented = some claim)
    (hscene : host.consider now link applicant.id = host.letIn link applicant claim) :
    host.Balanced (.perform now link (.consider applicant.id))
      (host.letIn link applicant claim) := by
  obtain ⟨hseat, hseats, -⟩ := Registry.claim?_spec hclaim
  have hreplaced := Registry.replaced_of_claim? hclaim
  have hgranted : granted (host.letIn link applicant claim).notices = [claim.seat] := by
    rw [granted, admissions_letIn]
    rfl
  apply Balanced.ofLost .replaced claim.replaced.toList
  · show losses (claim.replaced.toList.map (.left · .replaced) ++ _) = _
    rw [losses_append, losses_map_left]
    exact List.append_nil _
  · show reports (claim.replaced.toList.map (.left · .replaced) ++ _) = _
    rw [reports_append, reports_map_left]
    exact (List.filterMap_eq_nil_iff.mpr fun _ _ => rfl).symm
  · rw [hgranted]
    show (_ ++ claim.registry.seats).Perm _
    rw [hseats, hreplaced, ← List.append_assoc]
    exact (find?_append_eraseP_perm _ _).append_right _
  · intro seat cause
    rw [Option.mem_toList, hreplaced]
    constructor
    · rintro ⟨hfind, rfl⟩
      have hendpoint : seat.endpoint = applicant.endpoint := key_of_find? hfind
      have hadmitted : .admitted applicant.id claim.token claim.seat ∈
          (host.consider now link applicant.id).notices := by
        rw [hscene]
        exact List.mem_cons_self
      refine ⟨List.mem_of_find?_eq_some hfind, .replaced hadmitted ?_⟩
      rw [hseat, hendpoint]
    · rintro ⟨hmem, hlost⟩
      cases hlost with
      | replaced hadmitted hendpoint =>
        have hadmitted := mem_admissions.mpr hadmitted
        rw [hscene, admissions_letIn, List.mem_singleton] at hadmitted
        obtain ⟨-, -, rfl⟩ := hadmitted
        rw [hseat] at hendpoint
        have hendpoint : applicant.endpoint = seat.endpoint := hendpoint
        rw [hendpoint]
        exact ⟨hapart.seatAt?_eq hmem, rfl⟩

theorem balanced_consider (hapart : host.registry.Apart) (now : Nat) (link : Link) (id : Nat) :
    host.Balanced (.perform now link (.consider id)) (host.consider now link id) := by
  rcases host.consider_cases now link id with
    ⟨hsame, -⟩ | ⟨_, _, _, _, hover⟩ | ⟨applicant, claim, hfind, hclaim, hscene⟩
  · rw [hsame]
    refine .ofAside (List.forall_mem_nil _) rfl fun seat _ why hlost => ?_
    cases hlost with
    | replaced hadmitted =>
      rw [hsame] at hadmitted
      exact nomatch hadmitted
  · rw [hover]
    refine .ofAside (List.forall_mem_singleton.mpr ⟨rfl, rfl, rfl⟩) rfl fun seat _ why hlost => ?_
    cases hlost with
    | replaced hadmitted =>
      rw [hover] at hadmitted
      exact nomatch List.mem_singleton.mp hadmitted
  · obtain ⟨-, rfl⟩ := mem_of_find? hfind
    rw [hscene]
    exact balanced_letIn hapart hclaim hscene

/-- The worker of a seat that reads what makes no sense finds its seat, and takes it away. -/
theorem serve_of_corrupt (hseated : host.Seated) {link : Link} {seat : Seat}
    (hseat : seat ∈ host.registry.seats) {worker : Worker} {datagram : Bytes} {inbox : List Bytes}
    (hworker : host.worker? seat.id = some worker) (hworking : worker.dismissed = false)
    (hinbox : worker.inbox = datagram :: inbox)
    (herror : (worker.stream.feed datagram).error.isSome = true) :
    .left seat .corrupt ∈ (host.serve link seat.id).notices := by
  obtain ⟨error, herror⟩ := Option.isSome_iff_exists.mp herror
  have hfind : host.workers.find? (·.seat.id == seat.id) = some worker := hworker
  simp only [serve, hfind, hworking, hinbox, herror, hseated.seat?_eq hseat, Scene.expel_eq]
  exact List.mem_append_right _ List.mem_cons_self

theorem balanced_serve (hseated : host.Seated) (now : Nat) (link : Link) (id : Nat) :
    host.Balanced (.perform now link (.serve id)) (host.serve link id) := by
  have hcorrupt : ∀ seat ∈ host.registry.seats, ∀ why,
      host.Loses seat (.perform now link (.serve id)) why →
        seat.id = id ∧ why = .corrupt ∧ .left seat .corrupt ∈ (host.serve link id).notices := by
    intro seat hseat why hlost
    cases hlost with
    | corrupt hworker hworking hinbox herror =>
      exact ⟨rfl, rfl, serve_of_corrupt hseated hseat hworker hworking hinbox herror⟩
  have hturn := host.turn link id
  generalize host.serve link id = scene at hturn hcorrupt ⊢
  have haside (hnotices : ∀ notice ∈ scene.notices, notice.Aside) :
      ∀ seat ∈ host.registry.seats, ∀ why,
        ¬ host.Loses seat (.perform now link (.serve id)) why := by
    intro seat hseat why hlost
    obtain ⟨-, -, hleft⟩ := hcorrupt seat hseat why hlost
    exact nomatch (hnotices _ hleft).1
  cases hturn with
  | idle => exact .ofAside (List.forall_mem_nil _) rfl (haside (List.forall_mem_nil _))
  | ended => exact .ofAside (List.forall_mem_nil _) rfl (haside (List.forall_mem_nil _))
  | read => exact .ofAside aside_of_mem_forwarding rfl (haside aside_of_mem_forwarding)
  | lost => exact .ofAside aside_of_mem_forwarding rfl (haside aside_of_mem_forwarding)
  | @expelled worker datagram _ _ seat hfind hworking hinbox herror hseat =>
    have hmem := List.mem_of_find?_eq_some hseat
    obtain rfl : seat.id = id := key_of_find? hseat
    refine .ofExpelled (host.forwarding link seat.id worker datagram) hmem aside_of_mem_forwarding
      rfl rfl rfl fun other cause => ?_
    constructor
    · rintro ⟨rfl, rfl⟩
      exact ⟨hmem, .corrupt hfind hworking hinbox (by rw [herror]; rfl)⟩
    · rintro ⟨hother, hlost⟩
      obtain ⟨hid, rfl, -⟩ := hcorrupt other hother cause hlost
      exact ⟨hseated.eq_of_id hother hmem hid, rfl⟩

theorem balanced (hseated : host.Seated) (hapart : host.registry.Apart) (move : Move) :
    host.Balanced move (host.move move) := by
  cases move with
  | addToken token =>
    refine .ofAside (List.forall_mem_nil _) rfl fun _ _ _ hlost => ?_
    cases hlost
  | applyPresence presence => exact balanced_applyPresence presence
  | apply now endpoint offer =>
    refine .ofAside (List.forall_mem_nil _) rfl fun _ _ _ hlost => ?_
    cases hlost
  | receive endpoint datagram => exact balanced_receive endpoint datagram
  | route link sender traffic =>
    rw [Host.move, route, Scene.route_eq]
    refine .ofAside aside_of_mem_deliveries rfl fun _ _ _ hlost => ?_
    cases hlost
  | unregister link endpoint => exact balanced_unregister hseated hapart link endpoint
  | shutdown => exact balanced_shutdown
  | perform now link job =>
    cases job with
    | consider id => exact balanced_consider hapart now link id
    | serve id => exact balanced_serve hseated now link id
    | dismiss id =>
      refine .ofAside (List.forall_mem_nil _) rfl fun _ _ _ hlost => ?_
      cases hlost

/-- A move grants one seat under the next number, or none. -/
theorem numbered_granted (host : Host) (move : Move) {ids : List Nat}
    (h : Numbered ids host.grants) :
    Numbered (ids ++ (granted (host.move move).notices).map (·.id))
      (host.move move).host.grants := by
  rcases host.move_cases move with hquiet | ⟨_, link, applicant, claim, _, _, hclaim, hscene⟩
  · rw [granted, hquiet.admissions, hquiet.grants, List.map_nil, List.map_nil, List.append_nil]
    exact h
  · rw [hscene, granted, admissions_letIn, List.map_singleton, List.map_singleton,
      Registry.id_of_claim? hclaim]
    exact h.issue

/-- A seat is gone after a move exactly if it was lost in it. -/
theorem Balanced.gone_iff {move : Move} (h : host.Balanced move (host.move move))
    (hseated : host.Seated) {seat : Seat} (hseat : seat ∈ host.registry.seats) :
    seat ∉ (host.move move).host.registry.seats ↔ ∃ why, host.Loses seat move why := by
  have hlost : seat ∈ (losses (host.move move).notices).map (·.1) ↔
      ∃ why, host.Loses seat move why := by
    simp [h.lost, hseat]
  have hall := host.numbered_granted move hseated
  rw [← List.map_append] at hall
  have hnodup := h.seats.nodup_iff.mpr hall.nodup.of_map
  have hone := h.seats.mem_iff.mpr (List.mem_append_left _ hseat)
  rw [← hlost]
  constructor
  · intro hgone
    exact (List.mem_append.mp hone).resolve_right hgone
  · intro hmem hstays
    exact List.disjoint_of_nodup_append hnodup hmem hstays

end Host

/-! ### The run -/

open Host (Move)

/-- What the relay was told, who is seated, and who was. -/
structure Squared (c : Chronicle) : Prop where
  told : reports c.notices = (losses c.notices).filterMap fun (seat, why) => why.report? seat
  seats : ((losses c.notices).map (·.1) ++ c.host.registry.seats).Perm (granted c.notices)
  numbered : Numbered ((granted c.notices).map (·.id)) c.host.grants

theorem Squared.next {c : Chronicle} (h : Squared c) {move : Move}
    (hmove : c.host.Balanced move (c.host.move move)) : Squared (c.next move) where
  told := by
    show reports (_ ++ _) = (losses (_ ++ _)).filterMap _
    rw [reports_append, losses_append, List.filterMap_append, h.told, hmove.told]
  seats := by
    show ((losses (_ ++ _)).map _ ++ (c.host.move move).host.registry.seats).Perm (granted (_ ++ _))
    rw [losses_append, granted_append, List.map_append, List.append_assoc]
    refine (hmove.seats.append_left _).trans ?_
    rw [← List.append_assoc]
    exact h.seats.append_right _
  numbered := by
    show Numbered ((granted (_ ++ _)).map _) (c.host.move move).host.grants
    rw [granted_append, List.map_append]
    exact c.host.numbered_granted move h.numbered

section Run

variable {authWait : Nat} {moves : List Move}

theorem balanced_ofMoves (authWait : Nat) (moves : List Move) (move : Move) :
    let host := (Chronicle.ofMoves authWait moves).host
    host.Balanced move (host.move move) :=
  Host.balanced (seated_ofMoves authWait moves) (apart_ofMoves authWait moves) move

theorem squared_ofMoves (authWait : Nat) (moves : List Move) :
    Squared (Chronicle.ofMoves authWait moves) := by
  induction moves using List.reverseRecOn with
  | nil => exact ⟨rfl, .refl _, .nil _⟩
  | append_singleton moves move ih =>
    rw [Chronicle.ofMoves_concat]
    exact ih.next (balanced_ofMoves authWait moves move)

/-- An error is met by whoever is fed more. -/
theorem error_feedAll_mono {pieces more : List Bytes} (h : pieces <+: more)
    (herror : (Reassembly.empty.feedAll pieces).error.isSome = true) :
    (Reassembly.empty.feedAll more).error.isSome = true := by
  obtain ⟨rest, rfl⟩ := h
  rw [Reassembly.feedAll_append, Reassembly.Fed.goOn, if_pos herror]
  exact herror

/-- A seat that is lost over what was read is lost over what its peer sent. -/
theorem error_of_loses {seat : Seat} {move : Move}
    (hseat : seat ∈ (Chronicle.ofMoves authWait moves).host.registry.seats)
    (hlost : (Chronicle.ofMoves authWait moves).host.Loses seat move .corrupt) :
    (Reassembly.empty.feedAll
      (acceptedBy seat.id (Chronicle.ofMoves authWait moves).notices)).error.isSome = true := by
  obtain ⟨applicant, token, hadmitted⟩ := Chronicle.exists_admitted hseat
  have hlane := ((staffed_ofMoves authWait moves).lanes applicant token seat hadmitted).2
  cases hlost with
  | @corrupt _ _ worker datagram inbox hworker _ hinbox herror =>
    rw [hworker] at hlane
    cases hlane with
    | working read _ haccepted hfine hstream =>
      have hread : read ++ [datagram] <+: read ++ datagram :: inbox := ⟨inbox, by simp⟩
      rw [haccepted, hinbox]
      apply error_feedAll_mono hread
      rw [Reassembly.feedAll_concat hfine, hstream]
      exact herror

theorem error_of_corrupt {seat : Seat}
    (hlost : (seat, .corrupt) ∈ losses (Chronicle.ofMoves authWait moves).notices) :
    (Reassembly.empty.feedAll
      (acceptedBy seat.id (Chronicle.ofMoves authWait moves).notices)).error.isSome = true := by
  induction moves using List.reverseRecOn with
  | nil => exact nomatch hlost
  | append_singleton moves move ih =>
    rw [Chronicle.notices_concat] at hlost ⊢
    rw [losses_append] at hlost
    have hmore : acceptedBy seat.id (Chronicle.ofMoves authWait moves).notices <+:
        acceptedBy seat.id ((Chronicle.ofMoves authWait moves).notices ++
          ((Chronicle.ofMoves authWait moves).host.move move).notices) := by
      rw [acceptedBy_append]
      exact List.prefix_append _ _
    apply error_feedAll_mono hmore
    rcases List.mem_append.mp hlost with hold | hnew
    · exact ih hold
    · obtain ⟨hseat, hnow⟩ := ((balanced_ofMoves authWait moves move).lost seat .corrupt).mp hnew
      exact error_of_loses hseat hnow

end Run

/-- Whatever moves a host makes, what it hands to its link for the relay is one notice for each seat
that was taken away or lost over what its peer sent, in the order in which they were lost and under
their own addresses, and nothing else. Each seat that was granted is there or was lost, and lost
only once. The losses of a move are those that it brings about: by what the relay says, by somebody
who is let in from the same endpoint, by a request, by a worker that reads what makes no sense, by
a shutdown; and a seat is gone after a move if and only if it is one of them. -/
theorem losses_reported (authWait : Nat) (moves : List Move) :
    let c := Chronicle.ofMoves authWait moves
    reports c.notices = (losses c.notices).filterMap (fun (seat, why) => why.report? seat) ∧
    ((losses c.notices).map (·.1) ++ c.host.registry.seats).Perm (granted c.notices) ∧
    (((losses c.notices).map (·.1) ++ c.host.registry.seats).map (·.id)).Nodup ∧
    (∀ seat, (seat, .corrupt) ∈ losses c.notices →
      (Reassembly.empty.feedAll (acceptedBy seat.id c.notices)).error.isSome = true) ∧
    ∀ before move after, moves = before ++ move :: after →
      let host := (Chronicle.ofMoves authWait before).host
      (∀ seat why, .left seat why ∈ (host.move move).notices ↔
        seat ∈ host.registry.seats ∧ host.Loses seat move why) ∧
      ∀ seat ∈ host.registry.seats,
        seat ∉ (host.move move).host.registry.seats ↔ ∃ why, host.Loses seat move why := by
  intro c
  have hsquared := squared_ofMoves authWait moves
  refine ⟨hsquared.told, hsquared.seats, ?_, fun _ => error_of_corrupt, ?_⟩
  · exact (hsquared.seats.map _).nodup_iff.mpr hsquared.numbered.nodup
  · intro before move after _ host
    have hbalanced := balanced_ofMoves authWait before move
    refine ⟨fun seat why => ?_, fun seat => hbalanced.gone_iff (seated_ofMoves authWait before)⟩
    rw [← mem_losses]
    exact hbalanced.lost seat why

end LocalPlay.Overlay

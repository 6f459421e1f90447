import LocalPlay.Proofs.Overlay.Losses

/-!
# What a peer costs that makes no sense

A worker that reads a datagram with an error in it has all traffic before the error routed, and
ends. Its seat is given up and the relay told, if the seat is still there; if it is not, if for
instance the endpoint has sat down again in the meantime, nobody is told of anything. The rest of
the host stays as it is, `Host.vacate`, and the jobs that still wait for the worker find nobody.

A worker finds its seat by number and by nothing else. What makes this right is that numbers are
given out once: the seat under the number, if there is one, is that for which the worker was hired,
and a seat that was lost is never there again.
-/

namespace LocalPlay.Overlay

open Net Wire

open Host (Move)

/-- The next datagram that the worker is to read has an error in it. -/
structure Worker.Garbled (worker : Worker) (datagram : Bytes) : Prop where
  working : worker.dismissed = false
  next : worker.inbox.head? = some datagram
  error : (worker.stream.feed datagram).error.isSome = true

/-- What is said when a seat is given up for what its peer sent. -/
def expulsion (link : Link) (seat : Seat) : List Notice :=
  let gone : Packet := .proxyState ⟨seat.virtualIp, false⟩
  [.left seat .corrupt, .posted .relay gone (link .relay gone)]

namespace Host

variable {host : Host} {seat : Seat}

theorem vacate_of_gone (hgone : seat ∉ host.registry.seats) :
    host.vacate seat = host.dropWorker seat.id := by
  rw [vacate, List.erase_of_not_mem hgone]
  rfl

theorem worker?_vacate {id : Nat} (hne : id ≠ seat.id) :
    (host.vacate seat).worker? id = host.worker? id :=
  worker?_of_othersAt (host.othersAt_dropWorker seat.id) hne.symm

/-- The jobs that wait for the worker of a seat change nothing once both are gone. -/
theorem perform_vacate (now : Nat) (link : Link) {job : Job}
    (hjob : job = .serve seat.id ∨ job = .dismiss seat.id) :
    let scene := (host.vacate seat).perform now link job
    scene.host = host.vacate seat ∧ scene.notices = [] := by
  rcases hjob with rfl | rfl
  · rw [perform, serve_vacate]
    exact ⟨rfl, rfl⟩
  · exact ⟨host.dismiss_vacate seat, rfl⟩

/-- The worker of a seat reads a datagram with an error in it. The hypothesis is that the number of
the seat is that of no other. -/
theorem serve_of_garbled
    (hsole : ∀ other ∈ host.registry.seats, other.id = seat.id → other = seat) {worker : Worker}
    {datagram : Bytes} (hworker : host.worker? seat.id = some worker)
    (hgarbled : worker.Garbled datagram) (link : Link) :
    let scene := host.serve link seat.id
    scene.host = host.vacate seat ∧
      scene.notices = host.forwarding link seat.id worker datagram ++
        if seat ∈ host.registry.seats then expulsion link seat else [] := by
  have hfind : host.workers.find? (·.seat.id == seat.id) = some worker := hworker
  have hid := key_of_find? hfind
  obtain ⟨inbox, hinbox⟩ := List.head?_eq_some_iff.mp hgarbled.next
  obtain ⟨error, herror⟩ := Option.isSome_iff_exists.mp hgarbled.error
  simp only [serve, hfind, hgarbled.working, hinbox, herror, Scene.foldl_route_eq,
    Bool.false_eq_true, if_false]
  rw [dropWorker_setWorker host (by exact hid)]
  cases hseat : host.registry.seat? seat.id with
  | none =>
    have hgone : seat ∉ host.registry.seats := by
      intro hmem
      exact List.find?_eq_none.mp hseat seat hmem (beq_self_eq_true seat.id)
    rw [vacate_of_gone hgone, if_neg hgone, List.append_nil]
    exact ⟨rfl, rfl⟩
  | some other =>
    have hmem := List.mem_of_find?_eq_some hseat
    obtain rfl := hsole other hmem (key_of_find? hseat)
    dsimp only
    rw [if_pos hmem, Scene.expel_eq, dropWorker, Registry.removeSeat_eq hseat]
    exact ⟨rfl, rfl⟩

end Host

/-- With what comes before the error, all has been routed that there is in what the peer sent. -/
theorem Lane.garbled {seat : Seat} {notices more : List Notice} {worker : Worker}
    (h : Lane seat notices (some worker)) {datagram : Bytes} (hgarbled : worker.Garbled datagram)
    (hrouted : routedBy seat.id more =
      (Traffic.ofFrames (worker.stream.feed datagram).frames).map (worker.seat.virtualIp, ·)) :
    ∃ read, acceptedBy seat.id notices = read ++ worker.inbox ∧
      let reading := readStream (read ++ [datagram]).flatten
      reading.error.isSome = true ∧ routedBy seat.id (notices ++ more) =
        (Traffic.ofFrames reading.frames).map (seat.virtualIp, ·) := by
  cases h with
  | working read hseat haccepted hfine hstream hforwarded =>
    refine ⟨read, haccepted, ?_, ?_⟩
    · have hfed := Reassembly.feedAll_concat hfine datagram
      rw [Reassembly.feedAll_eq Reassembly.waits_empty, hstream] at hfed
      have herror := congrArg Reassembly.Fed.error hfed
      exact (congrArg Option.isSome herror).trans hgarbled.error
    · rw [← trafficIn_eq, routedBy_append, hforwarded, hrouted, hseat, ← hstream]
      exact (sentBy_concat seat.virtualIp hfine datagram).symm

section Run

variable {authWait : Nat} {moves : List Move} {seat : Seat}

/-- Whoever is seated under the number of a seat that was granted is in that seat. -/
theorem eq_of_granted (hgranted : seat ∈ granted (Chronicle.ofMoves authWait moves).notices) :
    ∀ other ∈ (Chronicle.ofMoves authWait moves).host.registry.seats,
      other.id = seat.id → other = seat := by
  intro other hother hid
  obtain ⟨_, _, hadmitted⟩ := Chronicle.exists_admitted hother
  have hnumbered := (squared_ofMoves authWait moves).numbered
  exact hnumbered.eq_of_id (mem_granted hadmitted) hgranted hid

/-- A seat that was granted is there, or it was lost, and not both. -/
theorem gone_iff_left (hgranted : seat ∈ granted (Chronicle.ofMoves authWait moves).notices) :
    seat ∉ (Chronicle.ofMoves authWait moves).host.registry.seats ↔
      ∃ why, .left seat why ∈ (Chronicle.ofMoves authWait moves).notices := by
  have hsquared := squared_ofMoves authWait moves
  have hnodup := hsquared.seats.nodup_iff.mpr hsquared.numbered.nodup.of_map
  have hone := hsquared.seats.mem_iff.mpr hgranted
  have hlost : seat ∈ (losses (Chronicle.ofMoves authWait moves).notices).map (·.1) ↔
      ∃ why, .left seat why ∈ (Chronicle.ofMoves authWait moves).notices := by
    simp [← mem_losses]
  rw [← hlost]
  constructor
  · intro hgone
    exact (List.mem_append.mp hone).resolve_right hgone
  · intro hmem hstays
    exact List.disjoint_of_nodup_append hnodup hmem hstays

end Run

/-- Whatever moves a host has made, a worker that reads a datagram with an error in it costs its own
peer the seat and nobody anything else. All traffic before the error is routed, in order and under
the address of the seat, and with it all that there is in what the peer sent. If the seat is still
there it is given up and the relay told. If it was lost before, and so if another seat of the same
endpoint has taken its place, nobody is told of anything, and whoever is seated stays. Either way
the host is left without the seat and the worker and is else what it was; other workers keep their
queues and what they have of a packet, and the jobs that still wait for the worker do nothing. -/
theorem corruption_costs_one_seat {authWait : Nat} {moves : List Move} {applicant : Nat}
    {token : ProxyToken} {seat : Seat}
    (hseat : .admitted applicant token seat ∈ (Chronicle.ofMoves authWait moves).notices)
    {worker : Worker} {datagram : Bytes}
    (hworker : (Chronicle.ofMoves authWait moves).host.worker? seat.id = some worker)
    (hgarbled : worker.Garbled datagram) (link : Link) :
    let c := Chronicle.ofMoves authWait moves
    let scene := c.host.serve link seat.id
    let delivered := (Traffic.ofFrames (worker.stream.feed datagram).frames).flatMap
      (c.host.registry.deliveries link (some seat.id) seat.virtualIp)
    (∃ read, acceptedBy seat.id c.notices = read ++ worker.inbox ∧
      let reading := readStream (read ++ [datagram]).flatten
      reading.error.isSome = true ∧ routedBy seat.id (c.notices ++ scene.notices) =
        (Traffic.ofFrames reading.frames).map (seat.virtualIp, ·)) ∧
    (seat ∈ c.host.registry.seats → scene.notices = delivered ++ expulsion link seat) ∧
    (seat ∉ c.host.registry.seats →
      scene.notices = delivered ∧ scene.host.registry = c.host.registry) ∧
    (seat ∉ c.host.registry.seats ↔ ∃ why, .left seat why ∈ c.notices) ∧
    (∀ other ∈ c.host.registry.seats, other.endpoint = seat.endpoint → other ≠ seat →
      seat ∉ c.host.registry.seats) ∧
    scene.host = c.host.vacate seat ∧ seat ∉ scene.host.registry.seats ∧
    (∀ id, id ≠ seat.id → scene.host.worker? id = c.host.worker? id) ∧
    ∀ now link job, job = .serve seat.id ∨ job = .dismiss seat.id →
      let after := scene.host.perform now link job
      after.host = scene.host ∧ after.notices = [] := by
  intro c scene delivered
  have hgranted : seat ∈ granted c.notices := mem_granted hseat
  have hlane : Lane seat c.notices (some worker) :=
    hworker ▸ ((staffed_ofMoves authWait moves).lanes applicant token seat hseat).2
  obtain ⟨hhost, hsaid⟩ := Host.serve_of_garbled (eq_of_granted hgranted) hworker hgarbled link
  have hown : worker.seat = seat := by
    cases hlane with
    | working _ hown => exact hown
  have hnotices : scene.notices =
      delivered ++ if seat ∈ c.host.registry.seats then expulsion link seat else [] := by
    rw [hsaid, Host.forwarding, hown]
  have hquiet : Quiet seat.id
      (if seat ∈ c.host.registry.seats then expulsion link seat else []) := by
    split
    · exact quiet_expel _ _ _ _ _ _
    · exact .nil
  have hrouted : routedBy seat.id scene.notices =
      (Traffic.ofFrames (worker.stream.feed datagram).frames).map (worker.seat.virtualIp, ·) := by
    rw [hnotices, hquiet.routed_append, routedBy_deliveries, hown]
  have hnodup : c.host.registry.seats.Nodup := (seated_ofMoves authWait moves).nodup.of_map
  refine ⟨hlane.garbled hgarbled hrouted, ?there, ?gone, gone_iff_left hgranted, ?succeeded, hhost,
    ?vacated, ?others, ?leftover⟩
  case there =>
    intro hthere
    rw [hnotices, if_pos hthere]
  case gone =>
    intro hgone
    rw [hnotices, if_neg hgone, hhost, Host.vacate_of_gone hgone]
    exact ⟨List.append_nil _, rfl⟩
  case succeeded =>
    intro other hother hendpoint hne hthere
    exact hne (List.inj_on_of_nodup_map (apart_ofMoves authWait moves) hother hthere hendpoint)
  case vacated =>
    rw [hhost]
    exact hnodup.not_mem_erase
  case others =>
    intro id hne
    rw [hhost, Host.worker?_vacate hne]
  case leftover =>
    intro now other job hjob
    rw [hhost]
    exact Host.perform_vacate now other hjob

/-- A peer sends a packet and what is none in one datagram. It loses its seat to that, but not the
seat it has when it sits down again before the datagram is read. -/
theorem corruption_costs_one_seat_of_rejoin :
    let token (ip : UInt32) : ProxyToken := ⟨ip, .zero, .zero, .v4⟩
    let endpoint (port : UInt16) : Endpoint := { ip := .v4 .zero, port }
    let offer : ProxyOffer := { ip := .zero, family := .v4, port := 0, token := .zero }
    let link : Link := fun _ _ => none
    let packet := (Packet.proxyConnect ⟨0, 7, 2, 80, 6⟩).encode.toOption.getD []
    let datagram := packet ++ List.replicate headerSize 0
    let moves : List Move := [.addToken (token 1), .addToken (token 2),
      .apply 0 (endpoint 7) offer, .apply 0 (endpoint 8) offer, .perform 0 link (.consider 0),
      .perform 0 link (.consider 1), .receive (endpoint 8) (packet.take 20),
      .receive (endpoint 7) datagram, .perform 0 link (.serve 1)]
    let rejoin : List Move :=
      [.addToken (token 3), .apply 0 (endpoint 7) offer, .perform 0 link (.consider 2)]
    let seat : Seat := ⟨0, endpoint 7, 1⟩
    let once := (Chronicle.ofMoves 1000 moves).host.serve link 0
    let late := (Chronicle.ofMoves 1000 (moves ++ rejoin)).host.serve link 0
    routedBy 0 once.notices = [(1, .connect ⟨0, 7, 2, 80, 6⟩)] ∧
      .left seat .corrupt ∈ once.notices ∧ once.host.registry.seats = [⟨1, endpoint 8, 2⟩] ∧
      routedBy 0 late.notices = routedBy 0 once.notices ∧
      late.host.registry.seats = [⟨1, endpoint 8, 2⟩, ⟨2, endpoint 7, 3⟩] := by
  intro token endpoint offer link packet datagram moves rejoin seat once late
  let worker : Worker := { seat, inbox := [datagram] }
  have hgarbled : worker.Garbled datagram := ⟨rfl, rfl, by decide +kernel⟩
  have hseat : .admitted 0 (token 1) seat ∈ (Chronicle.ofMoves 1000 moves).notices :=
    mem_admissions.mp (by decide +kernel)
  have hworker : (Chronicle.ofMoves 1000 moves).host.worker? 0 = some worker := by decide +kernel
  have hthere : seat ∈ (Chronicle.ofMoves 1000 moves).host.registry.seats := by decide +kernel
  obtain ⟨-, htold, -, -, -, hhost, -⟩ := corruption_costs_one_seat hseat hworker hgarbled link
  have hagain : .admitted 0 (token 1) seat ∈ (Chronicle.ofMoves 1000 (moves ++ rejoin)).notices :=
    mem_admissions.mp (by decide +kernel)
  have hold : (Chronicle.ofMoves 1000 (moves ++ rejoin)).host.worker? 0 = some worker := by
    decide +kernel
  have hgone : seat ∉ (Chronicle.ofMoves 1000 (moves ++ rejoin)).host.registry.seats := by
    decide +kernel
  obtain ⟨-, -, hsilent, -⟩ := corruption_costs_one_seat hagain hold hgarbled link
  obtain ⟨hlate, hregistry⟩ := hsilent hgone
  refine ⟨?_, ?_, ?_, ?_, ?_⟩
  · rw [htold hthere]
    decide +kernel
  · rw [htold hthere]
    exact List.mem_append_right _ List.mem_cons_self
  · rw [hhost]
    decide +kernel
  · rw [hlate, htold hthere]
    decide +kernel
  · rw [hregistry]
    decide +kernel

end LocalPlay.Overlay

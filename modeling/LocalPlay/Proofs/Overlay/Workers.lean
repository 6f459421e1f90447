import LocalPlay.Proofs.Overlay.Confinement

/-!
# What a move makes of a worker

Seen from one seat a move does one of six things. It leaves the worker of the seat alone and says
nothing of it. It queues a datagram for it. It has it read the datagram that it has waited with
longest, and what comes of that is either traffic or the end of the worker and of its seat. It tells
it to end, or lets it end if it was told before. `Tended` lists these and `tended` says that there
is no other, for all moves but an admission, which hires a worker and leaves all others alone.

Jobs that tell a worker to end are woken for seats alone that are given up, `dismissals`.
-/

namespace LocalPlay.Overlay

open Net Wire

/-- The datagram that was queued for the worker of a seat, if the notice is about that. -/
def Notice.accepted? (seat : Nat) : Notice → Option Bytes
  | accepted other datagram => if other = seat then some datagram else none
  | _ => none

/-- The traffic that was routed for a seat, and under which address. -/
def Notice.routed? (seat : Nat) : Notice → Option (UInt32 × Traffic)
  | routed other sender traffic => if other = some seat then some (sender, traffic) else none
  | _ => none

def acceptedBy (seat : Nat) (notices : List Notice) : List Bytes :=
  notices.filterMap (Notice.accepted? seat)

def routedBy (seat : Nat) (notices : List Notice) : List (UInt32 × Traffic) :=
  notices.filterMap (Notice.routed? seat)

theorem acceptedBy_append (seat : Nat) (notices more : List Notice) :
    acceptedBy seat (notices ++ more) = acceptedBy seat notices ++ acceptedBy seat more :=
  List.filterMap_append

theorem routedBy_append (seat : Nat) (notices more : List Notice) :
    routedBy seat (notices ++ more) = routedBy seat notices ++ routedBy seat more :=
  List.filterMap_append

/-- Nothing is said of the worker of the seat. -/
def Quiet (seat : Nat) (notices : List Notice) : Prop :=
  ∀ notice ∈ notices, notice.accepted? seat = none ∧ notice.routed? seat = none

namespace Quiet

variable {seat : Nat} {notices more : List Notice}

theorem nil : Quiet seat [] :=
  fun _ => nofun

theorem append (h : Quiet seat notices) (hmore : Quiet seat more) : Quiet seat (notices ++ more) :=
  List.forall_mem_append.mpr ⟨h, hmore⟩

theorem cons {notice : Notice} (haccepted : notice.accepted? seat = none)
    (hrouted : notice.routed? seat = none) (h : Quiet seat notices) :
    Quiet seat (notice :: notices) :=
  List.forall_mem_cons.mpr ⟨⟨haccepted, hrouted⟩, h⟩

theorem map {α : Type} {f : α → Notice} {xs : List α}
    (h : ∀ x, (f x).accepted? seat = none ∧ (f x).routed? seat = none) : Quiet seat (xs.map f) :=
  List.forall_mem_map.mpr fun x _ => h x

theorem accepted (h : Quiet seat notices) : acceptedBy seat notices = [] :=
  List.filterMap_eq_nil_iff.mpr fun notice hmem => (h notice hmem).1

theorem routed (h : Quiet seat notices) : routedBy seat notices = [] :=
  List.filterMap_eq_nil_iff.mpr fun notice hmem => (h notice hmem).2

theorem accepted_append (hmore : Quiet seat more) :
    acceptedBy seat (notices ++ more) = acceptedBy seat notices := by
  rw [acceptedBy_append, hmore.accepted, List.append_nil]

theorem routed_append (hmore : Quiet seat more) :
    routedBy seat (notices ++ more) = routedBy seat notices := by
  rw [routedBy_append, hmore.routed, List.append_nil]

end Quiet

theorem quiet_expel (id : Nat) (seat : Seat) (why : Departure) (target : Target) (packet : Packet)
    (refusal : Option SendError) : Quiet id [.left seat why, .posted target packet refusal] :=
  (Quiet.nil.cons rfl rfl).cons rfl rfl

/-- What is forwarded for one seat says nothing of another. -/
theorem quiet_of_forwards {r : Registry} {seat other : Nat} (hne : other ≠ seat)
    {notices : List Notice} (h : ∀ notice ∈ notices, notice.Forwards r other) :
    Quiet seat notices := by
  intro notice hmem
  have hnotice := h notice hmem
  cases notice with
  | accepted owner datagram =>
    obtain rfl : owner = other := hnotice
    exact ⟨if_neg hne, rfl⟩
  | routed owner sender traffic =>
    obtain rfl : owner = some other := hnotice
    exact ⟨rfl, if_neg (hne ∘ Option.some.inj)⟩
  | _ => exact ⟨rfl, rfl⟩

section Deliveries

variable (r : Registry) (link : Link) (seat : Option Nat) (sender : UInt32)

/-- Of all that routing says only its beginning is about a worker. -/
theorem deliveries_eq_cons (traffic : Traffic) :
    ∃ posts, r.deliveries link seat sender traffic = .routed seat sender traffic :: posts ∧
      ∀ id, Quiet id posts := by
  rw [Registry.deliveries]
  cases traffic.stamp? sender with
  | none => exact ⟨[], rfl, fun _ => .nil⟩
  | some stamped => exact ⟨_, rfl, fun _ => .map fun _ => ⟨rfl, rfl⟩⟩

theorem quiet_deliveries (traffic : Traffic) {id : Nat} (hne : seat ≠ some id) :
    Quiet id (r.deliveries link seat sender traffic) := by
  obtain ⟨posts, hposts, hquiet⟩ := deliveries_eq_cons r link seat sender traffic
  rw [hposts]
  exact (hquiet id).cons rfl (if_neg hne)

theorem acceptedBy_deliveries (id : Nat) (traffics : List Traffic) :
    acceptedBy id (traffics.flatMap (r.deliveries link seat sender)) = [] := by
  refine List.filterMap_eq_nil_iff.mpr fun notice hmem => ?_
  obtain ⟨traffic, -, hmem⟩ := List.mem_flatMap.mp hmem
  obtain ⟨posts, hposts, hquiet⟩ := deliveries_eq_cons r link seat sender traffic
  rw [hposts, List.mem_cons] at hmem
  rcases hmem with rfl | hmem
  · rfl
  · exact (hquiet id notice hmem).1

theorem routedBy_deliveries (id : Nat) (traffics : List Traffic) :
    routedBy id (traffics.flatMap (r.deliveries link (some id) sender)) =
      traffics.map (sender, ·) := by
  have hone (traffic : Traffic) :
      routedBy id (r.deliveries link (some id) sender traffic) = [(sender, traffic)] := by
    obtain ⟨posts, hposts, hquiet⟩ := deliveries_eq_cons r link (some id) sender traffic
    have hrouted : (Notice.routed (some id) sender traffic).routed? id = some (sender, traffic) :=
      if_pos rfl
    rw [hposts, routedBy, List.filterMap_cons_some hrouted]
    exact congrArg _ (hquiet id).routed
  rw [routedBy, List.filterMap_flatMap, List.map_eq_flatMap]
  exact congrArg (traffics.flatMap ·) (funext hone)

end Deliveries

namespace Host

/-- The worker of a seat. -/
def worker? (host : Host) (seat : Nat) : Option Worker :=
  host.workers.find? (·.seat.id == seat)

/-- What a move does to the worker of a seat and says of it, and how it is left. -/
inductive Tended (host : Host) (seat : Nat) (move : Move) (scene : Scene) : Prop
  | alone (hquiet : Quiet seat scene.notices) (hafter : scene.host.worker? seat = host.worker? seat)
  | told {worker : Worker} {now : Nat} {link : Link}
      (hmove : move = .perform now link (.dismiss seat))
      (hquiet : Quiet seat scene.notices) (hbefore : host.worker? seat = some worker)
      (hafter : scene.host.worker? seat = some { worker with dismissed := true })
  | ended {worker : Worker} (hdismissed : worker.dismissed = true)
      (hquiet : Quiet seat scene.notices) (hbefore : host.worker? seat = some worker)
      (hafter : scene.host.worker? seat = none)
  | queued {worker : Worker} {datagram : Bytes}
      (haccepted : acceptedBy seat scene.notices = [datagram])
      (hrouted : routedBy seat scene.notices = [])
      (hbefore : host.worker? seat = some worker)
      (hafter : scene.host.worker? seat =
        some { worker with inbox := worker.inbox ++ [datagram] })
  | read {worker : Worker} {datagram : Bytes} {inbox : List Bytes}
      (hinbox : worker.inbox = datagram :: inbox)
      (herror : (worker.stream.feed datagram).error = none)
      (haccepted : acceptedBy seat scene.notices = [])
      (hrouted : routedBy seat scene.notices =
        (Traffic.ofFrames (worker.stream.feed datagram).frames).map (worker.seat.virtualIp, ·))
      (hbefore : host.worker? seat = some worker)
      (hafter : scene.host.worker? seat =
        some { worker with inbox, stream := (worker.stream.feed datagram).next })
  /-- What was read made no sense, and nobody has the seat from now on. -/
  | failed {worker : Worker} {datagram : Bytes} {inbox : List Bytes}
      (hinbox : worker.inbox = datagram :: inbox)
      (haccepted : acceptedBy seat scene.notices = [])
      (hrouted : routedBy seat scene.notices =
        (Traffic.ofFrames (worker.stream.feed datagram).frames).map (worker.seat.virtualIp, ·))
      (hbefore : host.worker? seat = some worker) (hafter : scene.host.worker? seat = none)
      (hgone : ∀ other ∈ scene.host.registry.seats, other.id ≠ seat)

/-! ### Seats that are given up -/

theorem Seated.ne_of_erase {host : Host} (h : host.Seated) {seat : Seat}
    (hseat : seat ∈ host.registry.seats) :
    ∀ other ∈ host.registry.seats.erase seat, other.id ≠ seat.id := by
  intro other hother hid
  obtain rfl := h.eq_of_id (List.mem_of_mem_erase hother) hseat hid
  exact h.nodup.of_map.not_mem_erase hother

theorem Seated.ne_of_removeSeat {host : Host} (h : host.Seated) {id : Nat} {seat : Seat}
    (hseat : host.registry.seat? id = some seat) :
    ∀ other ∈ (host.registry.removeSeat id).seats, other.id ≠ id := by
  obtain rfl : seat.id = id := key_of_find? hseat
  rw [Registry.removeSeat_eq hseat]
  exact h.ne_of_erase (List.mem_of_find?_eq_some hseat)

section Tended

variable {host : Host} {seat : Nat}

theorem worker?_of_othersAt {other : Nat} {workers : List Worker} (h : host.OthersAt other workers)
    (hne : other ≠ seat) : ({ host with workers } : Host).worker? seat = host.worker? seat := by
  have hsame (workers : List Worker) : (workers.filter (·.seat.id ≠ other)).find?
      (·.seat.id == seat) = workers.find? (·.seat.id == seat) := by
    rw [List.find?_filter]
    congr 1
    funext w
    by_cases hw : w.seat.id = seat
    · simp [hw, hne.symm]
    · simp [hw]
  show workers.find? _ = host.workers.find? _
  rw [← hsame workers, h, hsame]

theorem tended_receive (endpoint : Endpoint) (datagram : Bytes) :
    host.Tended seat (.receive endpoint datagram) (host.receive endpoint datagram).2 := by
  rcases host.receive_cases endpoint datagram with
    hdropped | ⟨owner, worker, -, hfind, -, hqueued⟩
  · rw [hdropped]
    exact .alone .nil rfl
  · rw [hqueued]
    by_cases howner : owner.id = seat
    · subst howner
      have haccepted : (Notice.accepted owner.id datagram).accepted? owner.id = some datagram :=
        if_pos rfl
      refine .queued (List.filterMap_cons_some haccepted) rfl hfind ?_
      rw [worker?, find?_queue, hfind, Option.map_some]
    · refine .alone (Quiet.nil.cons (if_neg howner) rfl) ?_
      exact worker?_of_othersAt (host.othersAt_queue owner.id datagram) howner

theorem tended_dismiss (now : Nat) (link : Link) (id : Nat) :
    host.Tended seat (.perform now link (.dismiss id)) (host.dismiss id) := by
  by_cases hid : id = seat
  · subst hid
    have hafter : (host.dismiss id).host.worker? id = (host.worker? id).map _ :=
      host.find?_dismiss id
    cases hbefore : host.worker? id with
    | none =>
      rw [hbefore] at hafter
      exact .alone .nil (hafter.trans hbefore.symm)
    | some worker =>
      rw [hbefore] at hafter
      exact .told rfl .nil hbefore hafter
  · exact .alone .nil (worker?_of_othersAt (host.othersAt_dismiss id) hid)

/-- The turn of one worker does not concern another. -/
theorem tended_serve_of_ne (now : Nat) (link : Link) {id : Nat} (hne : id ≠ seat) :
    host.Tended seat (.perform now link (.serve id)) (host.serve link id) := by
  have hserved := host.served link id
  generalize host.serve link id = scene at hserved ⊢
  cases hserved with
  | forwarded hworkers hnotices =>
    exact .alone (quiet_of_forwards hne hnotices) (worker?_of_othersAt hworkers hne)
  | @expelled other _ _ hother hnotices =>
    obtain rfl : other.id = id := key_of_find? hother
    refine .alone ?_ (worker?_of_othersAt (host.othersAt_dropWorker other.id) hne)
    exact (quiet_of_forwards hne hnotices).append (quiet_expel _ _ _ _ _ _)

theorem tended_serve (hseated : host.Seated) (now : Nat) (link : Link) :
    host.Tended seat (.perform now link (.serve seat)) (host.serve link seat) := by
  have hturn := host.turn link seat
  generalize host.serve link seat = scene at hturn ⊢
  have haccepted (worker : Worker) (datagram : Bytes) :
      acceptedBy seat (host.forwarding link seat worker datagram) = [] :=
    acceptedBy_deliveries _ _ _ _ _ _
  have hrouted (worker : Worker) (datagram : Bytes) :
      routedBy seat (host.forwarding link seat worker datagram) =
        (Traffic.ofFrames (worker.stream.feed datagram).frames).map (worker.seat.virtualIp, ·) :=
    routedBy_deliveries _ _ _ _ _
  cases hturn with
  | idle => exact .alone .nil rfl
  | ended hfind hdismissed => exact .ended hdismissed .nil hfind (host.find?_dropWorker seat)
  | @read worker datagram inbox hfind _ hinbox herror =>
    have hid := key_of_find? hfind
    let after : Worker := { worker with inbox, stream := (worker.stream.feed datagram).next }
    have hafter : (host.setWorker after).worker? seat = some after := find?_setWorker hid hfind
    exact .read hinbox herror (haccepted _ _) (hrouted _ _) hfind hafter
  | lost hfind _ hinbox _ hseat =>
    refine .failed hinbox (haccepted _ _) (hrouted _ _) hfind (host.find?_dropWorker seat) ?_
    intro other hmem
    have hother := List.find?_eq_none.mp hseat other hmem
    simpa using hother
  | @expelled _ _ _ _ owner hfind _ hinbox _ hseat =>
    obtain rfl : owner.id = seat := key_of_find? hseat
    have hquiet := quiet_expel owner.id owner .corrupt .relay (.proxyState ⟨owner.virtualIp, false⟩)
      (link .relay (.proxyState ⟨owner.virtualIp, false⟩))
    exact .failed hinbox (hquiet.accepted_append.trans (haccepted _ _))
      (hquiet.routed_append.trans (hrouted _ _)) hfind (host.find?_vacate owner)
      (hseated.ne_of_erase (List.mem_of_find?_eq_some hseat))

/-- An admission hires a worker. -/
theorem quiet_letIn (link : Link) (applicant : Applicant) (claim : Registry.Claim) :
    Quiet seat (host.letIn link applicant claim).notices :=
  .cons rfl rfl ((Quiet.map fun _ => ⟨rfl, rfl⟩).append ((Quiet.nil.cons rfl rfl).cons rfl rfl))

theorem worker?_letIn (link : Link) (applicant : Applicant) (claim : Registry.Claim) :
    (host.letIn link applicant claim).host.worker? seat =
      (host.worker? seat).or
        (if claim.seat.id = seat then some { seat := claim.seat } else none) := by
  show (host.workers ++ [_]).find? _ = _
  rw [List.find?_append, List.find?_singleton]
  simp [worker?]

theorem tended (hseated : host.Seated) (seat : Nat) {move : Move}
    (hquiet : host.WithoutGrant move (host.move move)) :
    host.Tended seat move (host.move move) := by
  cases move with
  | addToken token => exact .alone .nil rfl
  | apply now endpoint offer => exact .alone .nil rfl
  | receive endpoint datagram => exact host.tended_receive endpoint datagram
  | applyPresence presence =>
    rw [move, applyPresence]
    split
    · exact .alone .nil rfl
    · rw [Scene.closeAll_eq]
      exact .alone ((Quiet.map fun _ => ⟨rfl, rfl⟩).append (.map fun _ => ⟨rfl, rfl⟩)) rfl
  | route link sender traffic =>
    rw [move, route, Scene.route_eq]
    exact .alone (quiet_deliveries _ _ _ _ _ (by simp)) rfl
  | unregister link endpoint =>
    rw [move, unregister]
    cases host.registry.seatAt? endpoint with
    | none => exact .alone .nil rfl
    | some owner =>
      dsimp only
      rw [Scene.expel_eq]
      exact .alone (quiet_expel _ _ _ _ _ _) rfl
  | shutdown =>
    rw [move, shutdown, Scene.closeAll_eq]
    exact .alone ((Quiet.map fun _ => ⟨rfl, rfl⟩).append (.map fun _ => ⟨rfl, rfl⟩)) rfl
  | perform now link job =>
    cases job with
    | dismiss id => exact tended_dismiss now link id
    | serve id =>
      by_cases hid : id = seat
      · subst hid
        exact tended_serve hseated now link
      · exact tended_serve_of_ne now link hid
    | consider id =>
      rcases host.consider_cases now link id with
        ⟨hsame, _⟩ | ⟨_, _, _, _, hover⟩ | ⟨applicant, claim, _, _, hscene⟩
      · rw [move, perform, hsame]
        exact .alone .nil rfl
      · rw [move, perform, hover]
        exact .alone (Quiet.nil.cons rfl rfl) rfl
      · have hnone := hquiet.admissions
        rw [move, perform, hscene, admissions_letIn] at hnone
        simp at hnone

end Tended

/-! ### Numbers -/

theorem grants_le_move (host : Host) (move : Move) :
    host.grants ≤ (host.move move).host.grants := by
  rcases host.move_cases move with hquiet | ⟨_, link, _, claim, _, _, _, hscene⟩
  · exact Nat.le_of_eq hquiet.grants.symm
  · rw [hscene]
    exact Nat.le_succ _

/-- A seat was there before, or is numbered by the count. -/
theorem seat_or_new {host : Host} {move : Move} {seat : Seat}
    (hmem : seat ∈ (host.move move).host.registry.seats) :
    seat ∈ host.registry.seats ∨ seat.id = host.grants := by
  rcases host.move_cases move with hquiet | ⟨_, link, _, claim, _, _, hclaim, hscene⟩
  · exact .inl (hquiet.seats.subset hmem)
  · obtain ⟨-, hseats, -⟩ := Registry.claim?_spec hclaim
    rw [hscene] at hmem
    have hmem : seat ∈ claim.registry.seats := hmem
    rw [hseats, List.mem_append, List.mem_singleton] at hmem
    rcases hmem with hmem | rfl
    · exact .inl (List.eraseP_subset hmem)
    · exact .inr (Registry.id_of_claim? hclaim)

/-! ### Dismissals -/

theorem Seated.dismissals_letIn {host : Host} (h : host.Seated) (link : Link)
    {applicant : Applicant} {claim : Registry.Claim}
    (hclaim : host.registry.claim? host.grants applicant.endpoint applicant.presented = some claim)
    {id : Nat} (hjob : .dismiss id ∈ (host.letIn link applicant claim).jobs) :
    (∃ seat ∈ host.registry.seats, seat.id = id) ∧
      ∀ other ∈ (host.letIn link applicant claim).host.registry.seats, other.id ≠ id := by
  obtain ⟨-, hseats, -⟩ := Registry.claim?_spec hclaim
  obtain ⟨seat, hreplaced, ⟨⟩⟩ := List.mem_map.mp hjob
  rw [Option.mem_toList, Registry.replaced_of_claim? hclaim] at hreplaced
  have hmem := List.mem_of_find?_eq_some hreplaced
  refine ⟨⟨seat, hmem, rfl⟩, fun other hother => ?_⟩
  rw [eraseP_of_find? hreplaced] at hseats
  have hother : other ∈ claim.registry.seats := hother
  rw [hseats, List.mem_append, List.mem_singleton] at hother
  rcases hother with hother | rfl
  · exact h.ne_of_erase hmem other hother
  · have hbelow := h.below seat.id (List.mem_map_of_mem hmem)
    rw [Registry.id_of_claim? hclaim]
    exact Nat.ne_of_gt hbelow

theorem Seated.dismissals_serve {host : Host} (h : host.Seated) (link : Link) {seat id : Nat}
    (hjob : .dismiss id ∈ (host.serve link seat).jobs) :
    (∃ seat ∈ host.registry.seats, seat.id = id) ∧
      ∀ other ∈ (host.serve link seat).host.registry.seats, other.id ≠ id := by
  have hturn := host.turn link seat
  generalize host.serve link seat = scene at hturn hjob ⊢
  cases hturn with
  | read => exact absurd (List.mem_singleton.mp hjob) nofun
  | @expelled _ _ _ _ owner _ _ _ _ hseat =>
    obtain ⟨⟩ := List.mem_singleton.mp hjob
    have hmem := List.mem_of_find?_eq_some hseat
    exact ⟨⟨owner, hmem, rfl⟩, h.ne_of_erase hmem⟩
  | _ => exact nomatch hjob

/-- Only workers whose seat is given up are to be told to end. -/
theorem Seated.dismissals {host : Host} (h : host.Seated) (move : Move) {id : Nat}
    (hjob : .dismiss id ∈ (host.move move).jobs) :
    (∃ seat ∈ host.registry.seats, seat.id = id) ∧
      ∀ other ∈ (host.move move).host.registry.seats, other.id ≠ id := by
  cases move with
  | addToken token =>
    obtain ⟨_, -, hnot⟩ := List.mem_map.mp hjob
    cases hnot
  | apply now endpoint offer => simp [Host.move, apply] at hjob
  | receive endpoint datagram =>
    rw [Host.move] at hjob
    rcases host.receive_cases endpoint datagram with hdropped | ⟨_, _, _, _, _, hqueued⟩
    · simp [hdropped] at hjob
    · simp [hqueued, queue] at hjob
  | applyPresence presence =>
    rw [Host.move, applyPresence] at hjob ⊢
    split at hjob
    · simp at hjob
    · rename_i hpresent
      rw [if_neg hpresent]
      rw [Scene.closeAll_eq] at hjob ⊢
      obtain ⟨seat, hseat, ⟨⟩⟩ := List.mem_map.mp hjob
      obtain ⟨hmem, hgone⟩ := List.mem_filter.mp hseat
      refine ⟨⟨seat, hmem, rfl⟩, fun other hother hid => ?_⟩
      obtain ⟨hother, hstays⟩ := List.mem_filter.mp hother
      obtain rfl := h.eq_of_id hother hmem hid
      simp [hgone] at hstays
  | route link sender traffic =>
    rw [Host.move, route, Scene.route_eq] at hjob
    simp at hjob
  | unregister link endpoint =>
    rw [Host.move, unregister] at hjob ⊢
    cases hseat : host.registry.seatAt? endpoint with
    | none =>
      rw [hseat] at hjob
      simp at hjob
    | some seat =>
      rw [hseat] at hjob
      have hmem := List.mem_of_find?_eq_some hseat
      dsimp only at hjob ⊢
      rw [Scene.expel_eq] at hjob ⊢
      obtain ⟨⟩ := List.mem_singleton.mp hjob
      exact ⟨⟨seat, hmem, rfl⟩, h.ne_of_removeSeat (h.seat?_eq hmem)⟩
  | shutdown =>
    rw [Host.move, shutdown, Scene.closeAll_eq] at hjob ⊢
    obtain ⟨seat, hmem, ⟨⟩⟩ := List.mem_map.mp hjob
    exact ⟨⟨seat, hmem, rfl⟩, by simp⟩
  | perform now link job =>
    cases job with
    | dismiss other => simp [Host.move, perform, dismiss] at hjob
    | serve other => exact h.dismissals_serve link hjob
    | consider applicant =>
      rcases host.consider_cases now link applicant with
        ⟨hsame, _⟩ | ⟨_, _, _, _, hover⟩ | ⟨applicant, claim, _, hclaim, hscene⟩
      · rw [Host.move, perform, hsame] at hjob
        simp at hjob
      · rw [Host.move, perform, hover] at hjob
        simp at hjob
      · rw [Host.move, perform, hscene] at hjob ⊢
        exact h.dismissals_letIn link hclaim hjob

end Host

end LocalPlay.Overlay
